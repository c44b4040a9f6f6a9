import Mathlib.Algebra.Group.Nat.Defs
import Mathlib.Data.List.Nodup

/-!
# The sleep lock of the kernel

`struct lock` keeps a count that is one while the lock is free, the CPU recorded
by its last acquirer, and a wait channel. Each function below is what one
spinlock section of the source does to that structure. `lock_acquire` tests the
count, and either takes the lock or puts the caller on the channel; the spinlock
is dropped only after the caller is on it, so test and sleep are one section.
A woken thread runs the same section again. `lock_release` gives the count back
and moves the oldest sleeper, if any, off the channel; the lock itself is not
handed over. An assertion that fails stops the kernel and has no successor.
-/
namespace Os161.Synch

/-- `struct lock`: `lock_count`, `lock_holder` and the sleepers of `lock_wchan`,
oldest first. The name serves only debugging output and is left out. -/
structure Lock (Cpu Thread : Type) where
  count : Nat
  holder : Option Cpu
  wchan : List Thread

variable {Cpu Thread : Type}

/-- `lock_create`, once its allocations have succeeded. -/
def lockCreate : Lock Cpu Thread := ⟨1, none, []⟩

/-- `lock_do_i_hold` compares the recorded CPU with the one it runs on. Before
the first CPU exists every lock counts as held. -/
def lockDoIHold [DecidableEq Cpu] (curcpu : Option Cpu) (lock : Lock Cpu Thread) : Bool :=
  match curcpu with
  | none => true
  | some cpu => decide (lock.holder = some cpu)

/-- The two ways a section of `lock_acquire` ends. -/
inductive Attempt (Cpu Thread : Type)
  | sleeps (lock : Lock Cpu Thread)
  | takes (lock : Lock Cpu Thread)

/-- One pass through the loop of `lock_acquire`, with its spinlock held
throughout: `wchan_sleep` queues the caller at the tail, otherwise the count is
taken and the current CPU recorded. -/
def lockAcquire (cpu : Cpu) (thread : Thread) (lock : Lock Cpu Thread) : Attempt Cpu Thread :=
  if lock.count = 0 then
    .sleeps { lock with wchan := lock.wchan ++ [thread] }
  else
    .takes { lock with count := lock.count - 1, holder := some cpu }

/-- `wchan_wakeone` takes the oldest sleeper off the channel. -/
def wchanWakeone : List Thread → Option Thread × List Thread
  | [] => (none, [])
  | oldest :: rest => (some oldest, rest)

/-- Waking one sleeper of a channel without repetitions: the woken thread was on
it and is gone, everybody else stays, and nobody is woken only from an empty
channel. -/
theorem wakeone_exact {queue rest : List Thread} {woken : Option Thread}
    (distinct : queue.Nodup) (taken : (woken, rest) = wchanWakeone queue) :
    rest.Nodup ∧ (∀ thread, thread ∈ rest ↔ thread ∈ queue ∧ woken ≠ some thread) ∧
      (∀ thread, woken = some thread → thread ∈ queue) ∧ (woken = none → queue = []) := by
  cases queue with
  | nil =>
    obtain ⟨rfl, rfl⟩ := Prod.mk.inj taken
    simp
  | cons oldest others =>
    obtain ⟨rfl, rfl⟩ := Prod.mk.inj taken
    obtain ⟨absent, distinct⟩ := List.nodup_cons.mp distinct
    refine ⟨distinct, ?_, by simp, by simp⟩
    intro thread
    by_cases first : thread = oldest
    · simp [first, absent]
    · have other : oldest ≠ thread := Ne.symm first
      simp [first, other]

/-- `lock_release`: the ownership assertion, then one spinlock section. The count
is a 32-bit unsigned, and its increment is asserted to be positive. -/
def lockRelease [DecidableEq Cpu] (curcpu : Option Cpu) (lock : Lock Cpu Thread) :
    Option (Option Thread × Lock Cpu Thread) :=
  if lockDoIHold curcpu lock then
    let count := (lock.count + 1) % 2 ^ 32
    if 0 < count then
      let (woken, rest) := wchanWakeone lock.wchan
      some (woken, ⟨count, none, rest⟩)
    else none
  else none

/-- A section of `lock_acquire` sleeps exactly on a zero count, changing only the
channel; otherwise it lowers the count by one and records the CPU. -/
theorem lock_acquire_cases (cpu : Cpu) (thread : Thread) (lock : Lock Cpu Thread) :
    (lock.count = 0 ∧ lockAcquire cpu thread lock =
        .sleeps ⟨0, lock.holder, lock.wchan ++ [thread]⟩) ∨
      (0 < lock.count ∧ lockAcquire cpu thread lock =
        .takes ⟨lock.count - 1, some cpu, lock.wchan⟩) := by
  by_cases empty : lock.count = 0
  · exact Or.inl ⟨empty, by simp [lockAcquire, empty]⟩
  · exact Or.inr ⟨Nat.pos_of_ne_zero empty, by simp [lockAcquire, empty]⟩

/-- A section of `lock_release` that returns ran under the recorded CPU, raised
the count modulo its width, forgot the CPU and woke the oldest sleeper. -/
theorem lock_release_returns [DecidableEq Cpu] {cpu : Cpu} {lock after : Lock Cpu Thread}
    {woken : Option Thread} (released : lockRelease (some cpu) lock = some (woken, after)) :
    lock.holder = some cpu ∧ after.count = (lock.count + 1) % 2 ^ 32 ∧ after.holder = none ∧
      (woken, after.wchan) = wchanWakeone lock.wchan := by
  by_cases held : lock.holder = some cpu
  · by_cases positive : 0 < (lock.count + 1) % 2 ^ 32
    · simp only [lockRelease, lockDoIHold, held, decide_true, if_true, if_pos positive] at released
      obtain ⟨rfl, rfl⟩ := Prod.mk.inj (Option.some.inj released)
      exact ⟨held, rfl, rfl, rfl⟩
    · simp only [lockRelease, lockDoIHold, held, decide_true, if_true, if_neg positive] at released
      cases released
  · simp [lockRelease, lockDoIHold, held] at released

/-- The ownership assertion is the only way a release of a taken lock can fail. -/
theorem lock_release_taken [DecidableEq Cpu] (cpu : Cpu) {lock : Lock Cpu Thread}
    (taken : lock.count = 0) :
    (lockRelease (some cpu) lock).isSome = lockDoIHold (some cpu) lock := by
  by_cases held : lock.holder = some cpu <;> simp [lockRelease, lockDoIHold, held, taken]

end Os161.Synch
