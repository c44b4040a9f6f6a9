import Mathlib.Logic.Basic

/-!
# Singly linked lists in memory

A linked list has a base and, in each of its members, a link to the next one. `links`
reads both: `links none` is what the base holds and `links (some x)` what the member `x`
does. The list ends at a null value. `Linked` says which members a walk over the links
meets from a given point on, and `Linked.redirect` is the one way such a statement is
carried over to other links: the new point holds what the old one did, and the members
still link as they did. Walking on, pushing at the front and unlinking are its instances.
-/
namespace Os161.Library.Chain

universe u

variable {Place : Type u} {null : Place} {links after : Option Place → Place}

/-- From a point on, the links lead through the listed members to the null value. -/
def Linked (null : Place) (links : Option Place → Place) : Option Place → List Place → Prop
  | guy, [] => links guy = null
  | guy, x :: rest => links guy = x ∧ x ≠ null ∧ Linked null links (some x) rest

variable {members : List Place} {guy : Option Place}

/-- Another point that holds the same link leads through the same members, under any links
that keep theirs. -/
theorem Linked.redirect {other : Option Place} (linked : Linked null links guy members)
    (start : after other = links guy) (kept : ∀ x ∈ members, after (some x) = links (some x)) :
    Linked null after other members := by
  induction members generalizing guy other with
  | nil => exact start.trans linked
  | cons x rest ih =>
    obtain ⟨first, real, tail⟩ := linked
    refine ⟨start.trans first, real, ?_⟩
    exact ih tail (kept x List.mem_cons_self)
      (fun y member => kept y (List.mem_cons_of_mem x member))

/-- A new member in front. -/
theorem Linked.push {x : Place} (linked : Linked null links guy members) (real : x ≠ null)
    (start : after guy = x) (next : after (some x) = links guy)
    (kept : ∀ y ∈ members, after (some y) = links (some y)) :
    Linked null after guy (x :: members) :=
  ⟨start, real, linked.redirect next kept⟩

/-- The first member is unlinked. -/
theorem Linked.unlink {x : Place} (linked : Linked null links guy (x :: members))
    (start : after guy = links (some x)) (kept : ∀ y ∈ members, after (some y) = links (some y)) :
    Linked null after guy members :=
  linked.2.2.redirect start kept

end Os161.Library.Chain
