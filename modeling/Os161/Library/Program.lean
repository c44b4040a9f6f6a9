import Mathlib.Logic.Basic

/-!
# Programs that return, fail or stop

A program runs on a state. It returns a value, fails with an error that its
caller can handle, or stops the whole system; a failure keeps the state it
happened in. `Ensures` says what holds after a program in the first two cases,
and whether the third is tolerated. The rules follow the program's own structure:
one for each way to build a program, an invariant rule for counted loops, and one
for weakening what is ensured.
-/
namespace Os161.Library.Program

universe u

/-- The ways a run of a program ends. -/
inductive Outcome (Stop Error State Value : Type u)
  | stop (reason : Stop)
  | fail (error : Error) (state : State)
  | done (value : Value) (state : State)

end Os161.Library.Program

namespace Os161.Library

universe u

/-- A program over a state. -/
def Program (Stop Error State Value : Type u) : Type u :=
  State → Program.Outcome Stop Error State Value

end Os161.Library

namespace Os161.Library.Program

universe u

variable {Stop Error State Value Result : Type u}

/-- Return a value. -/
def ret (value : Value) : Program Stop Error State Value :=
  fun state => .done value state

/-- Run one program and continue with its value. -/
def andThen (first : Program Stop Error State Value)
    (second : Value → Program Stop Error State Result) : Program Stop Error State Result :=
  fun state => match first state with
    | .stop reason => .stop reason
    | .fail error after => .fail error after
    | .done value after => second value after

instance : Monad (Program Stop Error State) where
  pure := ret
  bind := andThen

/-- Read something off the state. -/
def inspect (look : State → Value) : Program Stop Error State Value :=
  fun state => .done (look state) state

/-- Change the state. -/
def change (update : State → State) : Program Stop Error State PUnit :=
  fun state => .done PUnit.unit (update state)

/-- Fail with an error. -/
def failWith (error : Error) : Program Stop Error State Value :=
  fun state => .fail error state

/-- Stop the system. -/
def stopWith (reason : Stop) : Program Stop Error State Value :=
  fun _ => .stop reason

/-- Run a program and return its error, if it fails, as a value. -/
def attempt (program : Program Stop Error State Value) :
    Program Stop Error State (Except Error Value) :=
  fun state => match program state with
    | .stop reason => .stop reason
    | .fail error after => .done (.error error) after
    | .done value after => .done (.ok value) after

/-- Stop unless a condition holds. -/
def check (condition : Prop) [Decidable condition] (reason : Stop) :
    Program Stop Error State PUnit :=
  fun state => if condition then .done PUnit.unit state else .stop reason

/-- Run a program only if a condition holds. -/
def onlyIf (condition : Prop) [Decidable condition] (program : Program Stop Error State PUnit) :
    Program Stop Error State PUnit :=
  if condition then program else ret PUnit.unit

/-- Run a body for the indices below a bound in order, handing a value on. -/
def countUp (body : Nat → Value → Program Stop Error State Value) :
    Nat → Value → Program Stop Error State Value
  | 0, value => ret value
  | bound + 1, value => andThen (countUp body bound value) (body bound)

/-- What holds after a run: one property when it returned and one when it failed.
Stopping may be tolerated. -/
def Outcome.Satisfies (tolerated : Prop) (returns : Value → State → Prop)
    (fails : Error → State → Prop) : Outcome Stop Error State Value → Prop
  | .stop _ => tolerated
  | .fail error after => fails error after
  | .done value after => returns value after

/-- The value and the state of a run that returned. -/
def Outcome.result : Outcome Stop Error State Value → Option (Value × State)
  | .stop _ | .fail _ _ => none
  | .done value after => some (value, after)

variable {after : Result → State → Prop} {value : Value} {middle : State} {condition : Prop}
  {error : Error} {reason : Stop}

theorem Outcome.done_of_result {outcome : Outcome Stop Error State Value} {after : State}
    (result : outcome.result = some (value, after)) : outcome = .done value after := by
  cases outcome with
  | stop reason | fail error middle => cases result
  | done other middle =>
    cases result
    rfl

/-- What holds after every way a program can end from a state. -/
structure Ensures (tolerated : Prop) (program : Program Stop Error State Value) (state : State)
    (returns : Value → State → Prop) (fails : Error → State → Prop) : Prop where
  outcome : (program state).Satisfies tolerated returns fails

/-- What holds after a program that returns. -/
abbrev Succeeds (program : Program Stop Error State Value) (state : State)
    (returns : Value → State → Prop) : Prop :=
  Ensures False program state returns fun _ _ => False

variable {tolerated : Prop} {state : State} {returns : Value → State → Prop}
  {fails : Error → State → Prop}

section

variable {program : Program Stop Error State Value}

section

variable {otherReturns : Value → State → Prop}
  (ensured : Ensures tolerated program state returns fails)
  (returning : ∀ value after, returns value after → otherReturns value after)

include ensured returning

/-- Weaken what is ensured. -/
theorem Ensures.weaken {otherFails : Error → State → Prop}
    (failing : ∀ error after, fails error after → otherFails error after) :
    Ensures tolerated program state otherReturns otherFails := by
  have outcome := ensured.outcome
  constructor
  revert outcome
  cases program state with
  | stop reason => exact id
  | fail error after => exact failing error after
  | done value after => exact returning value after

/-- Weaken what is ensured of the result. -/
theorem Ensures.on_return :
    Ensures tolerated program state otherReturns fails :=
  ensured.weaken returning (fun _ _ failed => failed)

end

/-- Weaken what is ensured of failures. -/
theorem Ensures.on_failure {otherFails : Error → State → Prop}
    (ensured : Ensures tolerated program state returns fails)
    (failing : ∀ error after, fails error after → otherFails error after) :
    Ensures tolerated program state returns otherFails :=
  ensured.weaken (fun _ _ returned => returned) failing

/-- A program that does not fail. -/
theorem Ensures.unfailing (ensured : Ensures tolerated program state returns (fun _ _ => False)) :
    Ensures tolerated program state returns fails :=
  ensured.on_failure nofun

/-- Tolerate stopping under a weaker condition. -/
theorem Ensures.allow {other : Prop} (ensured : Ensures tolerated program state returns fails)
    (weaker : tolerated → other) : Ensures other program state returns fails := by
  have outcome := ensured.outcome
  constructor
  revert outcome
  cases program state with
  | stop reason => exact weaker
  | fail error after | done value after => exact id

/-- Tolerate stopping. -/
theorem Ensures.tolerate (ensured : Ensures tolerated program state returns fails) :
    Ensures True program state returns fails :=
  ensured.allow (fun _ => True.intro)

end

/-- Every program does something. -/
theorem ensures_anything (program : Program Stop Error State Value) (state : State) :
    Ensures True program state (fun _ _ => True) (fun _ _ => True) := by
  constructor
  cases program state with
  | stop reason | fail error after | done value after => exact True.intro

theorem ensures_pure (holds : returns value state) :
    Ensures tolerated (pure value : Program Stop Error State Value) state returns fails :=
  ⟨holds⟩

section

variable {first : Program Stop Error State Value} {second : Value → Program Stop Error State Result}

/-- The second program starts from whatever the first one ensures. -/
theorem Ensures.bind (ensured : Ensures tolerated first state returns fails)
    (continues : ∀ value middle, returns value middle →
      Ensures tolerated (second value) middle after fails) :
    Ensures tolerated (first >>= second) state after fails := by
  have outcome := ensured.outcome
  constructor
  show (andThen first second state).Satisfies tolerated after fails
  unfold andThen
  revert outcome
  cases first state with
  | stop reason | fail error middle => exact id
  | done value middle => exact fun outcome => (continues value middle outcome).outcome

/-- A program whose run is known is stepped over. -/
theorem Ensures.bind_done (ran : first state = .done value middle)
    (continues : Ensures tolerated (second value) middle after fails) :
    Ensures tolerated (first >>= second) state after fails := by
  constructor
  show (andThen first second state).Satisfies tolerated after fails
  unfold andThen
  rw [ran]
  exact continues.outcome

/-- A sequence that returned has returned from both of its parts. -/
theorem bind_returned {result : Result} {after : State}
    (ran : (first >>= second) state = .done result after) :
    ∃ value middle, first state = .done value middle ∧ second value middle = .done result after := by
  change andThen first second state = _ at ran
  unfold andThen at ran
  cases ended : first state with
  | stop reason | fail error middle =>
    rw [ended] at ran
    cases ran
  | done value middle =>
    rw [ended] at ran
    exact ⟨value, middle, rfl, ran⟩

/-- A program that is known to fail ends there. -/
theorem Ensures.bind_failed (ran : first state = .fail error middle) (holds : fails error middle) :
    Ensures tolerated (first >>= second) state after fails := by
  constructor
  show (andThen first second state).Satisfies tolerated after fails
  unfold andThen
  rw [ran]
  exact holds

end

section

variable {program : Program Stop Error State Value}

/-- A program whose run is known. -/
theorem ensures_of_done (ran : program state = .done value middle) (holds : returns value middle) :
    Ensures tolerated program state returns fails := by
  constructor
  rw [ran]
  exact holds

/-- What is ensured holds of a run that returned. -/
theorem Ensures.of_done {after : State} (ensured : Ensures tolerated program state returns fails)
    (ran : program state = .done value after) : returns value after := by
  have outcome := ensured.outcome
  rw [ran] at outcome
  exact outcome

/-- A program that neither stops nor fails returns. -/
theorem Ensures.returned (ensured : Succeeds program state returns) :
    ∃ value after, program state = .done value after ∧ returns value after := by
  have outcome := ensured.outcome
  cases ended : program state with
  | stop reason | fail error after =>
    rw [ended] at outcome
    exact outcome.elim
  | done value after =>
    rw [ended] at outcome
    exact ⟨value, after, rfl, outcome⟩

/-- An attempted program is followed by what handles its value or its error. -/
theorem Ensures.attempt_bind {first : Program Stop Error State Value}
    {second : Except Error Value → Program Stop Error State Result}
    {failsFirst : Error → State → Prop} (ensured : Ensures tolerated first state returns failsFirst)
    (returning : ∀ value middle, returns value middle →
      Ensures tolerated (second (.ok value)) middle after fails)
    (failing : ∀ error middle, failsFirst error middle →
      Ensures tolerated (second (.error error)) middle after fails) :
    Ensures tolerated (attempt first >>= second) state after fails := by
  have outcome := ensured.outcome
  constructor
  show (andThen (attempt first) second state).Satisfies tolerated after fails
  unfold andThen attempt
  revert outcome
  cases first state with
  | stop reason => exact id
  | fail error middle => exact fun outcome => (failing error middle outcome).outcome
  | done value middle => exact fun outcome => (returning value middle outcome).outcome

theorem ensures_inspect {look : State → Value} (holds : returns (look state) state) :
    Ensures tolerated (inspect look : Program Stop Error State Value) state returns fails :=
  ⟨holds⟩

theorem ensures_change {update : State → State} {after : PUnit → State → Prop}
    (holds : after PUnit.unit (update state)) :
    Ensures tolerated (change update : Program Stop Error State PUnit) state after fails :=
  ⟨holds⟩

theorem ensures_fail (holds : fails error state) :
    Ensures tolerated (failWith error : Program Stop Error State Value) state returns fails :=
  ⟨holds⟩

/-- A check that passes does nothing. -/
theorem check_passes [Decidable condition] (holds : condition) :
    (check condition reason : Program Stop Error State PUnit) state = .done PUnit.unit state := by
  unfold check
  rw [if_pos holds]

/-- An attempted program whose run is known. -/
theorem attempt_of_done (ran : program state = .done value middle) :
    attempt program state = .done (.ok value) middle := by
  unfold attempt
  rw [ran]

end

/-- A check passes when its condition holds. -/
theorem ensures_check [Decidable condition] {after : PUnit → State → Prop}
    (holds : after PUnit.unit state) (passes : condition ∨ tolerated) :
    Ensures tolerated (check condition reason : Program Stop Error State PUnit) state after fails := by
  constructor
  unfold check
  by_cases satisfied : condition
  · rw [if_pos satisfied]
    exact holds
  · rw [if_neg satisfied]
    exact passes.resolve_left satisfied

/-- A check that is tolerated to fail is followed by what comes after it. -/
theorem Ensures.bind_check [Decidable condition] {second : PUnit → Program Stop Error State Result}
    (passes : condition ∨ tolerated)
    (continues : Ensures tolerated (second PUnit.unit) state after fails) :
    Ensures tolerated (check condition reason >>= second) state after fails := by
  have checked : Ensures tolerated (check condition reason : Program Stop Error State PUnit) state
      (fun _ middle => middle = state) fails := ensures_check rfl passes
  refine Ensures.bind checked fun _ middle same => ?_
  rw [same]
  exact continues

/-- What is run conditionally does what it does, or nothing. -/
theorem ensures_only_if [Decidable condition] {program : Program Stop Error State PUnit}
    {after : PUnit → State → Prop} (runs : condition → Ensures tolerated program state after fails)
    (skips : ¬ condition → after PUnit.unit state) :
    Ensures tolerated (onlyIf condition program) state after fails := by
  unfold onlyIf
  by_cases satisfied : condition
  · rw [if_pos satisfied]
    exact runs satisfied
  · rw [if_neg satisfied]
    exact ⟨skips satisfied⟩

/-- A counted loop keeps an invariant that each round carries from its index to the
next. -/
theorem ensures_count_up (body : Nat → Value → Program Stop Error State Value)
    (invariant : Nat → Value → State → Prop) {bound : Nat} (value : Value)
    (initially : invariant 0 value state)
    (round : ∀ index value middle, index < bound → invariant index value middle →
      Ensures tolerated (body index value) middle (invariant (index + 1)) fails) :
    Ensures tolerated (countUp body bound value) state (invariant bound) fails := by
  induction bound with
  | zero => exact ⟨initially⟩
  | succ bound ih =>
    have earlier := ih (fun index value middle below => round index value middle (by omega))
    exact Ensures.bind earlier (fun value middle => round bound value middle (by omega))

/-! ## Running a sequence -/

theorem run_bind_inspect {look : State → Value} {second : Value → Program Stop Error State Result} :
    (inspect look >>= second) state = second (look state) state :=
  rfl

theorem run_bind_change {update : State → State}
    {second : PUnit → Program Stop Error State Result} :
    (change update >>= second) state = second PUnit.unit (update state) :=
  rfl

section

variable {first : Program Stop Error State Value} {second : Value → Program Stop Error State Result}

/-- A part whose run is known is stepped over. -/
theorem run_bind_done (ran : first state = .done value middle) :
    (first >>= second) state = second value middle := by
  show andThen first second state = second value middle
  unfold andThen
  rw [ran]

/-- A sequence that failed has failed in one of its parts. -/
theorem bind_failed_run {after : State} (ran : (first >>= second) state = .fail error after) :
    first state = .fail error after ∨
      ∃ value middle, first state = .done value middle ∧ second value middle = .fail error after := by
  change andThen first second state = _ at ran
  unfold andThen at ran
  cases ended : first state with
  | stop reason =>
    rw [ended] at ran
    cases ran
  | fail other middle =>
    rw [ended] at ran
    cases ran
    exact Or.inl rfl
  | done value middle =>
    rw [ended] at ran
    exact Or.inr ⟨value, middle, rfl, ran⟩

end

/-- A sequence in a sequence is one sequence. -/
theorem run_bind_bind {Middle : Type u} {first : Program Stop Error State Value}
    {second : Value → Program Stop Error State Middle}
    {third : Middle → Program Stop Error State Result} :
    ((first >>= second) >>= third) state =
      (first >>= fun value => second value >>= third) state := by
  show andThen (andThen first second) third state =
    andThen first (fun value => andThen (second value) third) state
  unfold andThen
  cases first state with
  | stop reason | fail error middle | done value middle => rfl

theorem Ensures.bind_bind {Middle : Type u} {first : Program Stop Error State Value}
    {second : Value → Program Stop Error State Middle}
    {third : Middle → Program Stop Error State Result}
    (ensured : Ensures tolerated (first >>= fun value => second value >>= third) state after fails) :
    Ensures tolerated ((first >>= second) >>= third) state after fails := by
  constructor
  rw [run_bind_bind]
  exact ensured.outcome

end Os161.Library.Program
