import Os161.Library.Runs
import Os161.Synch.Lock

/-!
# One sleep lock under every interleaving

Any number of threads call `lock_acquire` and `lock_release` on one lock. A step
is one spinlock section of one thread, run on whatever CPU it happens to be on:
a first attempt, a retry by a woken thread, or a release. Sleeping belongs to
the section that decides it and waking to the section of the releaser, because
both happen under the lock's spinlock. A thread releases only what it acquired,
and a release whose assertion fails is not a step.

The count and the set of threads past an acquire determine each other. Because a
release does not hand the lock over, another thread may take it first; what
survives is that a free lock with sleepers always has a woken thread left.
-/
namespace Os161.Synch.SleepLock

open Os161.Library.Runs Function

variable {Cpu Thread : Type}

/-- Where a thread is with respect to the lock's channel. A woken thread is on a
run queue, inside `wchan_sleep`, and due to run the section again. -/
inductive Phase
  | running
  | asleep
  | woken
  deriving DecidableEq

/-- The lock, the phase of each thread, and which threads have completed an
acquire that they have not yet released. -/
structure State (Cpu Thread : Type) where
  lock : Lock Cpu Thread
  phase : Thread → Phase
  holds : Thread → Bool

/-- The spinlock sections a thread can run. -/
inductive Action (Cpu Thread : Type)
  | acquire (thread : Thread) (cpu : Cpu)
  | retry (thread : Thread) (cpu : Cpu)
  | release (thread : Thread) (cpu : Cpu)

/-- A freshly created lock that no thread has touched. -/
def Initial (state : State Cpu Thread) : Prop :=
  state.lock = lockCreate ∧ (∀ thread, state.phase thread = .running) ∧
    ∀ thread, state.holds thread = false

/-- What every section keeps: the count says whether somebody is past an acquire,
the channel lists the sleepers once each, and a free lock with sleepers has a
woken thread. -/
structure Sound (state : State Cpu Thread) : Prop where
  counted : (state.lock.count = 1 ∧ ∀ thread, state.holds thread = false) ∨
    (state.lock.count = 0 ∧ ∃ owner, ∀ thread, state.holds thread = true ↔ thread = owner)
  queued : ∀ thread, thread ∈ state.lock.wchan ↔ state.phase thread = .asleep
  distinct : state.lock.wchan.Nodup
  due : state.lock.count = 1 → state.lock.wchan ≠ [] → ∃ thread, state.phase thread = .woken

attribute [local simp] lockCreate

theorem initial_sound (state : State Cpu Thread) (initial : Initial state) : Sound state := by
  obtain ⟨created, running, nobody⟩ := initial
  refine ⟨Or.inl ⟨by simp [created], nobody⟩, ?_, ?_, ?_⟩
  · intro thread
    simp [created, running thread]
  · simp [created]
  · simp [created]

variable [DecidableEq Thread]

/-- Run one section of `lock_acquire` for a thread. -/
def attempt (state : State Cpu Thread) (thread : Thread) (cpu : Cpu) : State Cpu Thread :=
  match lockAcquire cpu thread state.lock with
  | .sleeps lock => { state with lock := lock, phase := update state.phase thread .asleep }
  | .takes lock => {
      lock := lock
      phase := update state.phase thread .running
      holds := update state.holds thread true }

/-- `thread_make_runnable` on the thread a release took off the channel. -/
def wake (phase : Thread → Phase) : Option Thread → Thread → Phase
  | none => phase
  | some thread => update phase thread .woken

/-- The transition function. A thread already holding the lock may still call
`lock_acquire`; the source does not check for that. -/
def next [DecidableEq Cpu] (state : State Cpu Thread) : Action Cpu Thread → Option (State Cpu Thread)
  | .acquire thread cpu =>
    if state.phase thread = .running then some (attempt state thread cpu) else none
  | .retry thread cpu =>
    if state.phase thread = .woken then some (attempt state thread cpu) else none
  | .release thread cpu =>
    if state.phase thread = .running ∧ state.holds thread = true then
      (lockRelease (some cpu) state.lock).map (fun result => {
        lock := result.2
        phase := wake state.phase result.1
        holds := update state.holds thread false })
    else none

/-- Attempting the lock keeps the invariant for any thread that is not already on
the channel. A sleeping attempt leaves a taken lock; a successful one makes the
attempting thread the only owner. -/
theorem attempt_sound {state : State Cpu Thread} (thread : Thread) (cpu : Cpu)
    (sound : Sound state) (awake : state.phase thread ≠ .asleep) :
    Sound (attempt state thread cpu) := by
  have absent : thread ∉ state.lock.wchan := fun member => awake ((sound.queued thread).mp member)
  rcases lock_acquire_cases cpu thread state.lock with ⟨empty, sleeps⟩ | ⟨positive, takes⟩
  · simp only [attempt, sleeps]
    rcases sound.counted with ⟨full, _⟩ | ⟨_, owned⟩
    · omega
    refine ⟨Or.inr ⟨rfl, owned⟩, ?_, ?_, by simp⟩
    · intro other
      by_cases same : other = thread
      · simp [same]
      · simp [same, sound.queued other]
    · exact List.nodup_append.mpr ⟨sound.distinct, List.nodup_singleton _, by
        intro member inside other single
        rw [List.mem_singleton.mp single]
        intro same
        exact absent (same ▸ inside)⟩
  · simp only [attempt, takes]
    rcases sound.counted with ⟨full, nobody⟩ | ⟨empty, _⟩
    · refine ⟨Or.inr ⟨by simp [full], thread, ?_⟩, ?_, sound.distinct, ?_⟩
      · intro other
        by_cases same : other = thread
        · simp [same]
        · simp [same, nobody other]
      · intro other
        by_cases same : other = thread
        · simp [same, absent]
        · simp [same, sound.queued other]
      · intro remaining
        simp [full] at remaining
    · omega

/-- A release by the owner frees the lock. Whoever was oldest on the channel is
woken by the same section, so sleepers left behind have a woken thread. -/
theorem release_sound [DecidableEq Cpu] {state : State Cpu Thread} {thread : Thread} {cpu : Cpu}
    {woken : Option Thread} {lock : Lock Cpu Thread} (sound : Sound state)
    (owns : state.holds thread = true)
    (released : lockRelease (some cpu) state.lock = some (woken, lock)) :
    Sound { lock := lock, phase := wake state.phase woken,
            holds := update state.holds thread false } := by
  obtain ⟨_, count, _, channel⟩ := lock_release_returns released
  rcases sound.counted with ⟨_, nobody⟩ | ⟨empty, owner, exactly⟩
  · simp [nobody thread] at owns
  have same : thread = owner := (exactly thread).mp owns
  have counted : lock.count = 1 := by omega
  have freed : ∀ other, update state.holds thread false other = false := by
    intro other
    by_cases self : other = thread
    · simp [self]
    · have stranger : state.holds other ≠ true := fun held =>
        self (((exactly other).mp held).trans same.symm)
      simpa [self] using stranger
  obtain ⟨distinct, remaining, asleep, vacant⟩ :=
    wakeone_exact sound.distinct channel
  refine ⟨Or.inl ⟨counted, freed⟩, ?_, distinct, ?_⟩
  · intro other
    rw [remaining other, sound.queued other]
    cases woken with
    | none => simp [wake]
    | some oldest =>
      by_cases first : other = oldest
      · simp [wake, first]
      · have later : oldest ≠ other := Ne.symm first
        simp [wake, first, later]
  · intro _ sleepers
    cases woken with
    | none =>
      obtain ⟨sleeper, member⟩ := List.exists_mem_of_ne_nil _ sleepers
      have before := ((remaining sleeper).mp member).1
      simp [vacant rfl] at before
    | some oldest => exact ⟨oldest, by simp [wake]⟩

theorem next_sound [DecidableEq Cpu] {state : State Cpu Thread} {action : Action Cpu Thread}
    {after : State Cpu Thread} (sound : Sound state) (taken : next state action = some after) :
    Sound after := by
  cases action with
  | acquire thread cpu | retry thread cpu =>
    simp only [next, guard_some] at taken
    obtain ⟨due, rfl⟩ := taken
    exact attempt_sound thread cpu sound (by simp [due])
  | release thread cpu =>
    simp only [next, Option.ite_none_right_eq_some, Option.map_eq_some_iff] at taken
    obtain ⟨ready, ⟨woken, lock⟩, released, rfl⟩ := taken
    exact release_sound sound ready.2 released

/-- In every state some interleaving arrives at, at most one thread is between a
completed acquire and its release, the count is one exactly when there is none
and zero otherwise, and a free lock with threads asleep on it has at least one
woken thread that is still due to retry. -/
theorem exclusive_and_due [DecidableEq Cpu] (state : State Cpu Thread)
    (reached : Reaches next Anything Initial state) :
    (∀ first second, state.holds first = true → state.holds second = true → first = second) ∧
      ((∀ thread, state.holds thread = false) → state.lock.count = 1) ∧
      ((∃ thread, state.holds thread = true) → state.lock.count = 0) ∧
      ((∀ thread, state.holds thread = false) → (∃ thread, state.phase thread = .asleep) →
        ∃ thread, state.phase thread = .woken) := by
  have sound : Sound state := reached.invariant initial_sound
    (fun state action after sound _ taken => next_sound sound taken)
  have free : (∀ thread, state.holds thread = false) → state.lock.count = 1 := by
    intro nobody
    rcases sound.counted with ⟨full, _⟩ | ⟨_, owner, exactly⟩
    · exact full
    · have owns : state.holds owner = true := (exactly owner).mpr rfl
      simp [nobody owner] at owns
  refine ⟨?_, free, ?_, ?_⟩
  · intro first second firstHolds secondHolds
    rcases sound.counted with ⟨_, nobody⟩ | ⟨_, owner, exactly⟩
    · simp [nobody first] at firstHolds
    · exact ((exactly first).mp firstHolds).trans ((exactly second).mp secondHolds).symm
  · rintro ⟨thread, holds⟩
    rcases sound.counted with ⟨_, nobody⟩ | ⟨empty, _⟩
    · simp [nobody thread] at holds
    · exact empty
  · rintro nobody ⟨sleeper, asleep⟩
    exact sound.due (free nobody) (List.ne_nil_of_mem ((sound.queued sleeper).mpr asleep))

/-- Two threads and one CPU before either has called anything. -/
def twoThreads : State Unit Bool := ⟨lockCreate, fun _ => .running, fun _ => false⟩

/-- The second thread sleeps on the lock, the first releases it and takes it
again before the woken thread has run, and releases it once more. -/
def barging : List (Action Unit Bool) :=
  [.acquire true (), .acquire false (), .release true (), .acquire true (), .release true ()]

/-- The free lock at the end of the barging schedule has a thread due to retry. -/
theorem exclusive_and_due_barging :
    ∃ state, exec next twoThreads barging = some state ∧ state.phase false = .woken ∧
      state.lock.count = 1 ∧
      ∀ first second, state.holds first = true → state.holds second = true → first = second := by
  refine ⟨_, rfl, rfl, rfl, (exclusive_and_due _ (reaches_of_exec Initial barging
    (show Initial twoThreads from ⟨rfl, fun _ => rfl, fun _ => rfl⟩) rfl)).1⟩

end Os161.Synch.SleepLock
