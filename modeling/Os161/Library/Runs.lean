import Mathlib.Data.List.Basic

/-!
# Runs of a guarded transition system

A system is given by a partial transition function: `next state action` is the
successor, or nothing when the action cannot be taken there. A run is a finite
sequence of actions. A condition on steps restricts which transitions a run may
contain; it reads the state before the step and the action, never the outcome.

`Reaches` collects the states some permitted run arrives at, and its invariant
rule is the only induction over runs the developments below perform. The
executable `exec` evaluates one given schedule, and `reaches_of_permitted` turns
such an evaluation into reachability, so that concrete schedules stay
computations.
-/
namespace Os161.Library.Runs

universe u v

variable {State : Type u} {Action : Type v}

/-- The states some permitted run arrives at, from any admitted start. -/
inductive Reaches (next : State → Action → Option State)
    (permitted : State → Action → Prop) (start : State → Prop) : State → Prop
  | start (state : State) (admitted : start state) : Reaches next permitted start state
  | step (state after : State) (action : Action)
      (reached : Reaches next permitted start state) (allowed : permitted state action)
      (taken : next state action = some after) : Reaches next permitted start after

/-- A step with a guard is taken exactly if the guard holds. -/
theorem guard_some {guard : Prop} [Decidable guard] {result after : State} :
    (if guard then some result else none) = some after ↔ guard ∧ result = after := by
  rw [Option.ite_none_right_eq_some, Option.some.injEq]

/-- A property of every start that each permitted transition keeps holds in
every state a permitted run arrives at. -/
theorem Reaches.invariant {next : State → Action → Option State}
    {permitted : State → Action → Prop} {start : State → Prop} {property : State → Prop}
    (initially : ∀ state, start state → property state)
    (preserved : ∀ state action after, property state → permitted state action →
      next state action = some after → property after)
    {state : State} (reached : Reaches next permitted start state) : property state := by
  induction reached with
  | start state admitted => exact initially state admitted
  | step state after action _ allowed taken ih =>
    exact preserved state action after ih allowed taken

/-- Every action may be taken wherever the system allows it. -/
def Anything (_state : State) (_action : Action) : Prop := True

/-- Take the listed actions in order; nothing when one of them cannot be taken. -/
def exec (next : State → Action → Option State) : State → List Action → Option State
  | state, [] => some state
  | state, action :: rest => (next state action).bind (fun after => exec next after rest)

section

variable (next : State → Action → Option State)

/-- A schedule in two parts. -/
theorem exec_append (state : State) (first second : List Action) :
    exec next state (first ++ second) =
      (exec next state first).bind (fun middle => exec next middle second) := by
  induction first generalizing state with
  | nil => rfl
  | cons action rest ih =>
    simp [exec, Option.bind_assoc, ih]

/-- Every step of a given schedule is permitted where it is taken. -/
def Permits (next : State → Action → Option State) (permitted : State → Action → Prop) :
    State → List Action → Prop
  | _, [] => True
  | state, action :: rest => permitted state action ∧
      ∀ after ∈ next state action, Permits next permitted after rest

/-- The condition can be tested along the schedule if it can be tested in each state. -/
instance decidablePermits (permitted : State → Action → Prop)
    [∀ state action, Decidable (permitted state action)] (state : State) :
    (actions : List Action) → Decidable (Permits next permitted state actions)
  | [] => .isTrue trivial
  | action :: rest =>
    have (after : State) := decidablePermits permitted after rest
    inferInstanceAs (Decidable (_ ∧ ∀ after ∈ next state action, _))

variable {next} {permitted tested : State → Action → Prop} {start : State → Prop}
  {state after : State}

/-- A schedule that passes a test which implies the condition reaches, under the condition, the
state it evaluates to. -/
theorem reaches_of_permitted
    (sound : ∀ state action, tested state action → permitted state action) {actions : List Action}
    (reached : Reaches next permitted start state) (allowed : Permits next tested state actions)
    (evaluated : exec next state actions = some after) : Reaches next permitted start after := by
  induction actions generalizing state with
  | nil =>
    have same : state = after := Option.some.inj evaluated
    exact same ▸ reached
  | cons action rest ih =>
    simp only [exec, Option.bind_eq_some_iff] at evaluated
    obtain ⟨middle, taken, evaluated⟩ := evaluated
    exact ih (.step state middle action reached (sound state action allowed.1) taken)
      (allowed.2 middle taken) evaluated

/-- A schedule of actions that are permitted everywhere is permitted. -/
theorem permits_of_forall {permitted : State → Action → Prop} (actions : List Action)
    (state : State) (always : ∀ action, action ∈ actions → ∀ state, permitted state action) :
    Permits next permitted state actions := by
  induction actions generalizing state with
  | nil => trivial
  | cons action rest ih =>
    refine ⟨always action List.mem_cons_self state, fun after _ => ?_⟩
    exact ih after (fun other member => always other (List.mem_cons_of_mem _ member))

/-- Without a condition every schedule that evaluates to a state reaches it. -/
theorem reaches_of_exec (start : State → Prop) (actions : List Action)
    (admitted : start state) (evaluated : exec next state actions = some after) :
    Reaches next Anything start after :=
  reaches_of_permitted (fun _ _ => id) (.start state admitted)
    (permits_of_forall actions state (fun _ _ _ => trivial)) evaluated

end

end Os161.Library.Runs
