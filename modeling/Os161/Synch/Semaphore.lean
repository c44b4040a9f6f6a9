import Os161.Library.Places
import Os161.Synch.SleepLock

/-!
# One semaphore under every interleaving

Any number of threads call `P` and `V` on one semaphore. A step is one spinlock section:
a first attempt of `P`, the attempt of a thread that has been woken, or a `V`. An attempt
that finds the count at zero puts its thread on the wait channel before it lets go of the
spinlock, and `V` takes the oldest sleeper off the channel in the section that raises the
count.

`V` does not give its unit to the thread it wakes. Another thread may take the unit first,
and the woken one then goes back to sleep. What survives is a count of threads: as long as
anybody sleeps, there are at least as many woken threads due to retry as there are units.
-/
namespace Os161.Synch.Semaphore

open Os161.Library.Runs Os161.Library.Places Os161.Synch.SleepLock Function

variable {Thread : Type}

/-- `struct semaphore`: `sem_count` and the sleepers of `sem_wchan`, oldest first. -/
structure Sem (Thread : Type) where
  count : UInt32
  wchan : List Thread

/-- `sem_create`, once its allocations have succeeded. -/
def semCreate (initialCount : UInt32) : Sem Thread := ⟨initialCount, []⟩

/-- One pass through the loop of `P`, with the spinlock held throughout: the thread is
queued, or it has its unit. -/
inductive Passage (Thread : Type)
  | sleeps (sem : Sem Thread)
  | passes (sem : Sem Thread)

/-- A section of `P`. -/
def semP (thread : Thread) (sem : Sem Thread) : Passage Thread :=
  if sem.count = 0 then .sleeps { sem with wchan := sem.wchan ++ [thread] }
  else .passes { sem with count := sem.count - 1 }

/-- The section of `V`. The count wraps, and is then asserted to be positive. -/
def semV (sem : Sem Thread) : Option (Option Thread × Sem Thread) :=
  let count := sem.count + 1
  if 0 < count then
    let (woken, rest) := wchanWakeone sem.wchan
    some (woken, ⟨count, rest⟩)
  else none

/-- The semaphore, the phase of each thread, and how many calls have been completed. -/
structure State (Thread : Type) where
  sem : Sem Thread
  phase : Thread → Phase
  completedPs : Nat
  completedVs : Nat

/-- The sections that can be run. `V` never blocks, and interrupt handlers call it too, so
that nothing is asked of its caller. -/
inductive Action (Thread : Type)
  | proberen (thread : Thread)
  | retry (thread : Thread)
  | verhogen

/-- A semaphore that has just been created and that no thread has touched. -/
def Initial (initialCount : UInt32) (state : State Thread) : Prop :=
  state.sem = semCreate initialCount ∧ (∀ thread, state.phase thread = .running) ∧
    state.completedPs = 0 ∧ state.completedVs = 0

/-- What every section keeps: the units are accounted for, the channel has the sleepers,
and while there are any the woken threads are at least as many as the units. -/
structure Sound (initialCount : UInt32) (state : State Thread) : Prop where
  accounted : state.sem.count.toNat + state.completedPs = initialCount.toNat + state.completedVs
  queued : Lists state.sem.wchan state.phase (· = .asleep)
  due : ∃ woken, Lists woken state.phase (· = .woken) ∧
    (state.sem.wchan ≠ [] → state.sem.count.toNat ≤ woken.length)

theorem initial_sound (initialCount : UInt32) (state : State Thread)
    (initial : Initial initialCount state) : Sound initialCount state := by
  obtain ⟨created, running, noPs, noVs⟩ := initial
  refine ⟨by simp [created, semCreate, noPs, noVs], ?_, [], ?_, ?_⟩
  · rw [created]
    exact Lists.nobody (by simp [running])
  · exact Lists.nobody (by simp [running])
  · simp [created, semCreate]

theorem count_down {count : UInt32} (positive : count ≠ 0) :
    (count - 1).toNat + 1 = count.toNat := by
  have some : count.toNat ≠ 0 := fun zero => positive (UInt32.toNat_inj.mp zero)
  have one : (1 : UInt32) ≤ count := by
    rw [UInt32.le_iff_toNat_le, UInt32.toNat_one]
    omega
  rw [UInt32.toNat_sub_of_le _ _ one, UInt32.toNat_one]
  omega

/-- A count that is positive after the increment has gone up by one. -/
theorem count_up {count : UInt32} (positive : 0 < count + 1) :
    (count + 1).toNat = count.toNat + 1 := by
  have bound := count.toNat_lt
  have some : 0 < (count + 1).toNat := UInt32.lt_iff_toNat_lt.mp positive
  rw [UInt32.toNat_add, UInt32.toNat_one] at some ⊢
  omega

variable [DecidableEq Thread]

/-- Run one section of `P` for a thread. -/
def attempt (state : State Thread) (thread : Thread) : State Thread :=
  match semP thread state.sem with
  | .sleeps sem => { state with sem := sem, phase := update state.phase thread .asleep }
  | .passes sem => {
      state with
      sem := sem
      phase := update state.phase thread .running
      completedPs := state.completedPs + 1 }

/-- The transition function. -/
def next (state : State Thread) : Action Thread → Option (State Thread)
  | .proberen thread => if state.phase thread = .running then some (attempt state thread) else none
  | .retry thread => if state.phase thread = .woken then some (attempt state thread) else none
  | .verhogen => (semV state.sem).map (fun result => {
      state with
      sem := result.2
      phase := wake state.phase result.1
      completedVs := state.completedVs + 1 })

section

variable (initialCount : UInt32) (state : State Thread) (thread : Thread)
  (sound : Sound initialCount state) (awake : state.phase thread ≠ .asleep)

include sound awake

/-- An attempt on a positive count takes a unit. If it was the attempt of a woken thread
there is one fewer of those too. -/
theorem pass_sound (positive : state.sem.count ≠ 0) : Sound initialCount { state with
      sem := { state.sem with count := state.sem.count - 1 }
      phase := update state.phase thread .running
      completedPs := state.completedPs + 1 } := by
  obtain ⟨woken, listed, enough⟩ := sound.due
  have accounted := sound.accounted
  have taken := count_down positive
  refine ⟨by simp only; omega, sound.queued.unaffected (by simp [awake]), woken.erase thread,
    listed.leave thread (by decide), ?_⟩
  intro sleepers
  have before := enough sleepers
  have shorter : woken.length ≤ (woken.erase thread).length + 1 := by
    rw [List.length_erase]
    split <;> omega
  simp only
  omega

theorem attempt_sound : Sound initialCount (attempt state thread) := by
  by_cases empty : state.sem.count = 0
  · simp only [attempt, semP, if_pos empty]
    obtain ⟨woken, listed, _⟩ := sound.due
    refine ⟨sound.accounted, sound.queued.join awake rfl, woken.erase thread,
      listed.leave thread (by decide), ?_⟩
    simp [empty]
  · simp only [attempt, semP, if_neg empty]
    exact pass_sound initialCount state thread sound awake empty

end

/-- `V` adds a unit and, if anybody sleeps, a woken thread. -/
theorem verhogen_sound {initialCount : UInt32} {state : State Thread} {woken : Option Thread}
    {sem : Sem Thread} (sound : Sound initialCount state)
    (raised : semV state.sem = some (woken, sem)) :
    Sound initialCount { state with
      sem := sem
      phase := wake state.phase woken
      completedVs := state.completedVs + 1 } := by
  obtain ⟨due, listed, enough⟩ := sound.due
  have accounted := sound.accounted
  by_cases positive : 0 < state.sem.count + 1
  · have up := count_up positive
    simp only [semV, if_pos positive, Option.some.injEq] at raised
    cases queue : state.sem.wchan with
    | nil =>
      simp only [queue, wchanWakeone, Prod.mk.injEq] at raised
      obtain ⟨rfl, rfl⟩ := raised
      refine ⟨by simp only; omega, queue ▸ sound.queued, due, listed, ?_⟩
      simp
    | cons oldest rest =>
      simp only [queue, wchanWakeone, Prod.mk.injEq] at raised
      obtain ⟨rfl, rfl⟩ := raised
      have queued := sound.queued
      rw [queue] at queued
      have asleep : state.phase oldest = .asleep :=
        (queued.members oldest).mp List.mem_cons_self
      refine ⟨by simp only; omega, queued.leave_head (by decide), due ++ [oldest],
        listed.join (by simp [asleep]) rfl, ?_⟩
      intro _
      have before := enough (by simp [queue])
      simp only [List.length_append, List.length_singleton]
      omega
  · simp [semV, positive] at raised

theorem next_sound {initialCount : UInt32} {state : State Thread} {action : Action Thread}
    {after : State Thread} (sound : Sound initialCount state)
    (taken : next state action = some after) : Sound initialCount after := by
  cases action with
  | proberen thread | retry thread =>
    simp only [next, guard_some] at taken
    obtain ⟨due, rfl⟩ := taken
    exact attempt_sound initialCount state thread sound (by simp [due])
  | verhogen =>
    simp only [next, Option.map_eq_some_iff] at taken
    obtain ⟨⟨woken, sem⟩, raised, rfl⟩ := taken
    exact verhogen_sound sound raised

/-- In every state some interleaving arrives at, the count is the initial value plus the
completed `V`s minus the completed `P`s, which is not negative, and while any thread is
asleep on the semaphore the woken threads that are still due to retry are at least as many
as the count. A `V` that overflows the count fails its assertion and has no successor. -/
theorem units_and_retries (initialCount : UInt32) (state : State Thread)
    (reached : Reaches next Anything (Initial initialCount) state) :
    (state.sem.count.toNat : Int) = initialCount.toNat + state.completedVs - state.completedPs ∧
      0 ≤ (initialCount.toNat : Int) + state.completedVs - state.completedPs ∧
      ∃ due : List Thread, due.Nodup ∧ (∀ thread, thread ∈ due ↔ state.phase thread = .woken) ∧
        ((∃ thread, state.phase thread = .asleep) → state.sem.count.toNat ≤ due.length) := by
  have sound : Sound initialCount state := reached.invariant (initial_sound initialCount)
    (fun state action after sound _ taken => next_sound sound taken)
  have accounted := sound.accounted
  obtain ⟨due, listed, enough⟩ := sound.due
  refine ⟨by omega, by omega, due, listed.distinct, listed.members, ?_⟩
  rintro ⟨sleeper, asleep⟩
  exact enough (List.ne_nil_of_mem ((sound.queued.members sleeper).mpr asleep))

/-- A semaphore without units that three threads may use. -/
def noUnits : State (Fin 3) := ⟨semCreate 0, fun _ => .running, 0, 0⟩

/-- Two threads go to sleep, one is woken, the third takes the unit before the woken thread
has run, and that one goes back to sleep. A second unit arrives. -/
def overtaken : List (Action (Fin 3)) :=
  [.proberen 0, .proberen 1, .verhogen, .proberen 2, .retry 0, .verhogen]

/-- At the end of that schedule there is one unit, a sleeper, and a thread due to retry. -/
theorem units_and_retries_overtaken :
    ∃ state, exec next noUnits overtaken = some state ∧ state.phase 0 = .asleep ∧
      state.sem.count = 1 ∧
      ∃ due : List (Fin 3), due.Nodup ∧ (∀ thread, thread ∈ due ↔ state.phase thread = .woken) ∧
        1 ≤ due.length := by
  obtain ⟨state, evaluated, asleep, single⟩ : ∃ state ∈ exec next noUnits overtaken, state.phase 0 =
      .asleep ∧ state.sem.count = 1 := by
    decide +kernel
  have reached := reaches_of_exec (Initial 0) overtaken ⟨rfl, fun _ => rfl, rfl, rfl⟩ evaluated
  obtain ⟨_, _, due, distinct, members, enough⟩ := units_and_retries 0 state reached
  refine ⟨state, evaluated, asleep, single, due, distinct, members, ?_⟩
  have bound := enough ⟨0, asleep⟩
  rw [single] at bound
  exact bound

end Os161.Synch.Semaphore
