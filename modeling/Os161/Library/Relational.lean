import Mathlib.Order.Defs.Unbundled
import Os161.Library.Program

/-!
# Relations between states of programs

Two uses of a relation on states. A program moves along a relation if the state it
ends in is related to the one it started in; for a reflexive and transitive
relation this is enough to check for its parts. And a program agrees over a
relation if from related states it ends in the same way, with the same value, in
related states; this is how two runs are compared.
-/
namespace Os161.Library.Program

universe u

variable {Stop Error State Value Result : Type u} {relation : State → State → Prop}

/-! ## From the start of a run to its end -/

/-- Wherever a program returns or fails, it has moved along the relation. -/
def Moves (relation : State → State → Prop) (program : Program Stop Error State Value) : Prop :=
  ∀ state, Ensures True program state (fun _ after => relation state after)
    (fun _ after => relation state after)

/-- The two parts of a sequence move along a transitive relation. -/
theorem Moves.bind [IsTrans State relation] {first : Program Stop Error State Value}
    {second : Value → Program Stop Error State Result} (before : Moves relation first)
    (after : ∀ value, Moves relation (second value)) :
    Moves relation (first >>= second) := by
  intro state
  refine (before state).bind ?_
  intro value middle moved
  exact (after value middle).weaken (fun _ _ => trans_of relation moved)
    (fun _ _ => trans_of relation moved)

variable {program : Program Stop Error State Value} {value : Value}

section

variable [Std.Refl relation]

theorem moves_pure : Moves relation (pure value : Program Stop Error State Value) :=
  fun state => ensures_pure (refl state)

theorem moves_inspect {look : State → Value} :
    Moves relation (inspect look : Program Stop Error State Value) :=
  fun state => ensures_inspect (refl state)

theorem moves_check {condition : Prop} [Decidable condition] {reason : Stop} :
    Moves relation (check condition reason : Program Stop Error State PUnit) :=
  fun state => ensures_check (refl state) (Or.inr True.intro)

end

theorem moves_change {update : State → State} (moved : ∀ state, relation state (update state)) :
    Moves relation (change update : Program Stop Error State PUnit) :=
  fun state => ensures_change (moved state)

/-- A counted loop moves if every round does. -/
theorem moves_count_up [IsPreorder State relation] {body : Nat → Value → Program Stop Error State Value}
    (round : ∀ index value, Moves relation (body index value)) (bound : Nat) (value : Value) :
    Moves relation (countUp body bound value) := by
  induction bound with
  | zero => exact moves_pure
  | succ bound ih =>
    exact ih.bind (round bound)

/-! ## Two runs side by side -/

/-- Two runs have ended in the same way, in related states. -/
inductive Outcome.Agree (relation : State → State → Prop) :
    Outcome Stop Error State Value → Outcome Stop Error State Value → Prop
  | stop (reason : Stop) : Agree relation (.stop reason) (.stop reason)
  | fail (error : Error) {after other : State} (related : relation after other) :
      Agree relation (.fail error after) (.fail error other)
  | done (value : Value) {after other : State} (related : relation after other) :
      Agree relation (.done value after) (.done value other)

/-- From related states a program ends in the same way, in related states. -/
def Agrees (relation : State → State → Prop) (program : Program Stop Error State Value) : Prop :=
  ∀ first second, relation first second → Outcome.Agree relation (program first) (program second)

/-- The second run of a program that agrees ends as the first one does. -/
theorem Agrees.of_done (agrees : Agrees relation program) {first second after : State}
    (related : relation first second) (ran : program first = .done value after) :
    ∃ other, program second = .done value other ∧ relation after other := by
  have same := agrees first second related
  rw [ran] at same
  generalize program second = ended at same
  cases same with
  | done _ relatedAfter => exact ⟨_, rfl, relatedAfter⟩

/-- The two parts of a sequence agree. -/
theorem Agrees.bind {first : Program Stop Error State Value}
    {second : Value → Program Stop Error State Result} (before : Agrees relation first)
    (after : ∀ value, Agrees relation (second value)) : Agrees relation (first >>= second) := by
  intro left right related
  have same := before left right related
  show Outcome.Agree relation (andThen first second left) (andThen first second right)
  unfold andThen
  generalize first left = leftEnd at same
  generalize first right = rightEnd at same
  cases same with
  | stop reason => exact .stop reason
  | fail error relatedAfter => exact .fail error relatedAfter
  | done value relatedAfter => exact after value _ _ relatedAfter

theorem agrees_pure : Agrees relation (pure value : Program Stop Error State Value) :=
  fun _ _ related => .done value related

/-- What is read is the same in related states. -/
theorem agrees_inspect {look : State → Value}
    (same : ∀ first second, relation first second → look first = look second) :
    Agrees relation (inspect look : Program Stop Error State Value) := by
  intro first second related
  unfold inspect
  rw [same first second related]
  exact .done _ related

theorem agrees_change {update : State → State}
    (related : ∀ first second, relation first second → relation (update first) (update second)) :
    Agrees relation (change update : Program Stop Error State PUnit) :=
  fun first second before => .done PUnit.unit (related first second before)

theorem agrees_fail {error : Error} :
    Agrees relation (failWith error : Program Stop Error State Value) :=
  fun _ _ related => .fail error related

theorem agrees_check {condition : Prop} [Decidable condition] {reason : Stop} :
    Agrees relation (check condition reason : Program Stop Error State PUnit) := by
  intro first second related
  unfold check
  by_cases holds : condition
  · rw [if_pos holds, if_pos holds]
    exact .done _ related
  · rw [if_neg holds, if_neg holds]
    exact .stop reason

/-- Handling an error agrees as well. -/
theorem Agrees.attempt (agrees : Agrees relation program) : Agrees relation (attempt program) := by
  intro first second related
  have same := agrees first second related
  unfold Program.attempt
  generalize program first = firstEnd at same
  generalize program second = secondEnd at same
  cases same with
  | stop reason => exact .stop reason
  | fail error relatedAfter => exact .done (Except.error error) relatedAfter
  | done value relatedAfter => exact .done (Except.ok value) relatedAfter

end Os161.Library.Program
