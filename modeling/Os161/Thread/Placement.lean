import Mathlib.Logic.Function.Basic

/-!
# Which CPU runs which thread

Only the part of the thread system that ownership of sleep locks depends on: the
current thread of each CPU, the CPU a thread is assigned to, and its state. The
order of a run queue is not kept. A CPU that has given up its thread may pick any
ready thread assigned to it, which includes the round robin of the source.

A thread changes CPU only while it sits on a run queue, as in
`thread_consider_migration`, and never while it runs.
-/
namespace Os161.Thread

open Function

/-- The states of a started thread that has not exited: `S_RUN`, `S_READY` and
`S_SLEEP`. -/
inductive Mode
  | run
  | ready
  | sleep
  deriving DecidableEq

/-- `c_curthread` of each CPU while it is not idle, and `t_cpu` and `t_state` of
each thread. -/
structure Sched (Cpu Thread : Type) where
  curthread : Cpu → Option Thread
  cpu : Thread → Cpu
  mode : Thread → Mode

variable {Cpu Thread : Type} [DecidableEq Thread]

/-- The half of `thread_switch` that puts the current thread away. -/
def Sched.putAway [DecidableEq Cpu] (sched : Sched Cpu Thread) (cpu : Cpu) (thread : Thread)
    (mode : Mode) : Sched Cpu Thread :=
  { sched with
    curthread := update sched.curthread cpu none
    mode := update sched.mode thread mode }

/-- The half of `thread_switch` that picks the next thread. -/
def Sched.pick [DecidableEq Cpu] (sched : Sched Cpu Thread) (cpu : Cpu) (thread : Thread) :
    Sched Cpu Thread :=
  { sched with
    curthread := update sched.curthread cpu (some thread)
    mode := update sched.mode thread .run }

/-- `thread_make_runnable` on a thread taken off a wait channel, if there is one. -/
def Sched.makeRunnable (sched : Sched Cpu Thread) : Option Thread → Sched Cpu Thread
  | none => sched
  | some thread => { sched with mode := update sched.mode thread .ready }

attribute [local simp] Sched.putAway Sched.makeRunnable Sched.pick

/-- Move a queued thread to another CPU's run queue. -/
def Sched.migrate (sched : Sched Cpu Thread) (thread : Thread) (cpu : Cpu) : Sched Cpu Thread :=
  { sched with cpu := update sched.cpu thread cpu }

/-- The current thread of a CPU is the running thread assigned to it. -/
def Placed (sched : Sched Cpu Thread) : Prop :=
  ∀ cpu thread, sched.curthread cpu = some thread ↔
    sched.mode thread = .run ∧ sched.cpu thread = cpu

variable {sched : Sched Cpu Thread} {thread : Thread}

theorem put_away_placed [DecidableEq Cpu] {cpu : Cpu} {mode : Mode} (placed : Placed sched)
    (current : sched.curthread cpu = some thread) (away : mode ≠ .run) :
    Placed (sched.putAway cpu thread mode) := by
  obtain ⟨_, here⟩ := (placed cpu thread).mp current
  intro other candidate
  by_cases sameCpu : other = cpu
  · by_cases sameThread : candidate = thread
    · simp [sameCpu, sameThread, away]
    · have elsewhere : sched.curthread cpu ≠ some candidate := by
        rw [current]
        exact fun same => sameThread (Option.some.inj same).symm
      have stays := (placed cpu candidate).not.mp elsewhere
      simpa [sameCpu, sameThread] using stays
  · by_cases sameThread : candidate = thread
    · have elsewhere : sched.curthread other ≠ some thread := by
        intro running
        exact sameCpu (((placed other thread).mp running).2.symm.trans here)
      simp [sameCpu, sameThread, away, elsewhere]
    · simpa [sameCpu, sameThread] using placed other candidate

theorem pick_placed [DecidableEq Cpu] {cpu : Cpu} (placed : Placed sched)
    (idle : sched.curthread cpu = none) (ready : sched.mode thread = .ready)
    (assigned : sched.cpu thread = cpu) : Placed (sched.pick cpu thread) := by
  intro other candidate
  by_cases sameCpu : other = cpu
  · by_cases sameThread : candidate = thread
    · simp [sameCpu, sameThread, assigned]
    · have vacant := (placed cpu candidate).not.mp (by simp [idle])
      have differs : thread ≠ candidate := Ne.symm sameThread
      simpa [sameCpu, sameThread, differs] using vacant
  · by_cases sameThread : candidate = thread
    · have elsewhere := (placed other thread).not.mpr (by simp [ready])
      have different : cpu ≠ other := Ne.symm sameCpu
      simpa [sameCpu, sameThread, assigned, different] using elsewhere
    · simpa [sameCpu, sameThread] using placed other candidate

theorem make_runnable_placed (woken : Option Thread) (placed : Placed sched)
    (asleep : ∀ thread, woken = some thread → sched.mode thread = .sleep) :
    Placed (sched.makeRunnable woken) := by
  cases woken with
  | none => exact placed
  | some thread =>
    intro cpu candidate
    by_cases same : candidate = thread
    · have elsewhere := (placed cpu thread).not.mpr (by simp [asleep thread rfl])
      simpa [same] using elsewhere
    · simpa [same] using placed cpu candidate

/-- Only the woken thread changes its mode, and nobody starts to run. -/
theorem make_runnable_frame (sched : Sched Cpu Thread) (woken : Option Thread) :
    (sched.makeRunnable woken).cpu = sched.cpu ∧
      (sched.makeRunnable woken).curthread = sched.curthread ∧
        ∀ thread, woken ≠ some thread →
          (sched.makeRunnable woken).mode thread = sched.mode thread := by
  cases woken with
  | none => exact ⟨rfl, rfl, fun _ _ => rfl⟩
  | some chosen =>
    refine ⟨rfl, rfl, ?_⟩
    intro thread different
    have apart : thread ≠ chosen := fun same => different (by rw [same])
    simp [apart]

theorem migrate_placed (cpu : Cpu) (placed : Placed sched) (ready : sched.mode thread = .ready) :
    Placed (sched.migrate thread cpu) := by
  intro other candidate
  by_cases same : candidate = thread
  · have elsewhere := (placed other thread).not.mpr (by simp [ready])
    simpa [Sched.migrate, same, ready] using elsewhere
  · simpa [Sched.migrate, same] using placed other candidate

end Os161.Thread
