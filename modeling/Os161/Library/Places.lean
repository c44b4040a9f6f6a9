import Mathlib.Data.List.Nodup

/-!
# Agents on lists

Every agent is in one place, and for some places there is a list of exactly the agents
that are in them. When one agent moves, each list gains it, loses it, or is unaffected;
the rules below say so for a queue that agents join at the tail and leave at the head,
and for a collection they leave in any order.

That an agent is on at most one of several lists needs no rule of its own: it has only
one place. The last section is about a family of lists, one for every spot an agent can
be on, and agents that are on one spot or on none.
-/
namespace Os161.Library.Places

open Function (update)

universe u v

variable {Agent : Type u} {Place : Type v}

/-- A list of exactly the agents whose place is marked, once each. -/
structure Lists (agents : List Agent) (place : Agent → Place) (marked : Place → Prop) : Prop where
  members : ∀ agent, agent ∈ agents ↔ marked (place agent)
  distinct : agents.Nodup

/-- The empty list is right when nobody is in a marked place. -/
theorem Lists.nobody {place : Agent → Place} {marked : Place → Prop}
    (none : ∀ agent, ¬ marked (place agent)) : Lists [] place marked := by
  refine ⟨?_, List.nodup_nil⟩
  intro agent
  simp [none agent]

variable {agents : List Agent} {place : Agent → Place} {marked : Place → Prop}

/-- Many agents move at once, between places the list does not distinguish. -/
theorem Lists.all_unaffected (lists : Lists agents place marked) {moved : Agent → Place}
    (alike : ∀ agent, marked (place agent) ↔ marked (moved agent)) :
    Lists agents moved marked where
  members := fun agent => (lists.members agent).trans (alike agent)
  distinct := lists.distinct

/-- The order of a list does not matter. -/
theorem Lists.reorder (lists : Lists agents place marked) {reordered : List Agent}
    (same : reordered.Perm agents) : Lists reordered place marked where
  members := fun agent => same.mem_iff.trans (lists.members agent)
  distinct := same.nodup_iff.mpr lists.distinct

variable {agent : Agent} {new : Place}

section Arrangement

variable {Spot : Type v} {nodes : Spot → List Agent} {seat : Agent → Option Spot}

/-- The list of each spot has the agents that are on it. -/
def Arranged (nodes : Spot → List Agent) (seat : Agent → Option Spot) : Prop :=
  ∀ spot, Lists (nodes spot) seat (· = some spot)

/-- Two spots do not share an agent. -/
theorem Arranged.one_spot (arranged : Arranged nodes seat) {first second : Spot}
    (one : agent ∈ nodes first) (other : agent ∈ nodes second) : first = second := by
  have here := ((arranged first).members agent).mp one
  have there := ((arranged second).members agent).mp other
  exact Option.mem_unique here there

/-- One of the lists is put in another order. -/
theorem Arranged.reorder [DecidableEq Spot] (arranged : Arranged nodes seat) {spot : Spot}
    {reordered : List Agent}
    (same : reordered.Perm (nodes spot)) :
    Arranged (update nodes spot reordered) seat := by
  intro other
  obtain rfl | here := eq_or_ne other spot
  · simpa using (arranged other).reorder same
  · simpa [here] using arranged other

end Arrangement

variable [DecidableEq Agent]

/-- An agent joins at the tail. -/
theorem Lists.join (lists : Lists agents place marked) (outside : ¬ marked (place agent))
    (inside : marked new) : Lists (agents ++ [agent]) (update place agent new) marked := by
  have absent : agent ∉ agents := fun member => outside ((lists.members agent).mp member)
  refine ⟨?_, ?_⟩
  · intro other
    by_cases same : other = agent
    · simp [same, inside]
    · simp [same, lists.members other]
  · refine List.nodup_append.mpr ⟨lists.distinct, List.nodup_singleton agent, ?_⟩
    intro member listed other single
    rw [List.mem_singleton.mp single]
    exact ne_of_mem_of_not_mem listed absent

/-- The agent at the head leaves. -/
theorem Lists.leave_head (lists : Lists (agent :: agents) place marked) (outside : ¬ marked new) :
    Lists agents (update place agent new) marked := by
  obtain ⟨absent, distinct⟩ := List.nodup_cons.mp lists.distinct
  refine ⟨?_, distinct⟩
  intro other
  by_cases same : other = agent
  · simp [same, absent, outside]
  · simpa [same] using lists.members other

/-- Any agent on the list leaves. -/
theorem Lists.leave (lists : Lists agents place marked) (agent : Agent) (outside : ¬ marked new) :
    Lists (agents.erase agent) (update place agent new) marked := by
  refine ⟨?_, lists.distinct.erase agent⟩
  intro other
  rw [lists.distinct.mem_erase_iff]
  by_cases same : other = agent
  · simp [same, outside]
  · simp [same, lists.members other]

/-- A move between two places that the list does not distinguish. -/
theorem Lists.unaffected (lists : Lists agents place marked)
    (alike : marked (place agent) ↔ marked new) : Lists agents (update place agent new) marked := by
  refine ⟨?_, lists.distinct⟩
  intro other
  obtain rfl | same := eq_or_ne other agent
  · simpa using (lists.members other).trans alike
  · simpa [same] using lists.members other

/-! ## One list for each spot -/

section Spots

variable {Spot : Type v} [DecidableEq Spot] {nodes : Spot → List Agent} {seat : Agent → Option Spot}

/-- An agent that is on no spot gets on one. -/
theorem Arranged.enter (arranged : Arranged nodes seat) {spot : Spot} (off : seat agent = none) :
    Arranged (update nodes spot (nodes spot ++ [agent])) (update seat agent (some spot)) := by
  intro other
  obtain rfl | here := eq_or_ne other spot
  · simpa using (arranged other).join (by simp [off]) rfl
  · have apart : spot ≠ other := Ne.symm here
    simpa [here] using (arranged other).unaffected (by simp [off, apart])

/-- An agent gets off its spot. -/
theorem Arranged.exit (arranged : Arranged nodes seat) {spot : Spot} {rest : List Agent}
    (first : nodes spot = agent :: rest) :
    Arranged (update nodes spot rest) (update seat agent none) := by
  have on : seat agent = some spot :=
    ((arranged spot).members agent).mp (by rw [first]; exact List.mem_cons_self)
  intro other
  obtain rfl | here := eq_or_ne other spot
  · have lists := arranged other
    rw [first] at lists
    simpa using lists.leave_head (by simp)
  · have apart : spot ≠ other := Ne.symm here
    simpa [here] using (arranged other).unaffected (by simp [on, apart])

/-- An agent moves from one spot to another, wherever it was in the one list and
wherever it comes to be in the other. -/
theorem Arranged.transfer (arranged : Arranged nodes seat) {source target : Spot}
    {rest arrived : List Agent} (apart : source ≠ target)
    (left : (nodes source).Perm (agent :: rest)) (joined : arrived.Perm (nodes target ++ [agent])) :
    Arranged (update (update nodes source rest) target arrived)
      (update seat agent (some target)) := by
  have on : seat agent = some source :=
    ((arranged source).members agent).mp (left.mem_iff.mpr List.mem_cons_self)
  intro other
  obtain rfl | there := eq_or_ne other target
  · have grown : Lists (nodes other ++ [agent]) (update seat agent (some other))
        (· = some other) := (arranged other).join (by simp [on, apart]) rfl
    simpa using grown.reorder joined
  · obtain rfl | here := eq_or_ne other source
    · have shrunk : Lists rest (update seat agent (some target)) (· = some other) :=
        ((arranged other).reorder left.symm).leave_head (by simpa using Ne.symm apart)
      simpa [there] using shrunk
    · have unlike : source ≠ other := Ne.symm here
      have unlikeTarget : target ≠ other := Ne.symm there
      simpa [here, there] using (arranged other).unaffected (by simp [on, unlike, unlikeTarget])

end Spots

end Os161.Library.Places
