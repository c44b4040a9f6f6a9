import Os161.Library.Runs
import Os161.Synch.Lock
import Os161.Thread.Placement
import Mathlib.Data.Fintype.Basic

/-!
# Who owns a sleep lock

Threads on several CPUs acquire and release several locks while they are
preempted, put to sleep and moved between CPUs. The lock records the CPU its
acquirer ran on and `lock_do_i_hold` compares that record with the CPU of the
caller, so its answer is about a CPU and not about a thread. The two agree as
long as no thread that has acquired a lock leaves its CPU; they part as soon as
one does, in both directions.

Each thread releases only locks it acquired. A release whose assertion fails
stops the kernel and is not a step.
-/
namespace Os161.Synch.Ownership

open Os161.Library.Runs Os161.Thread Function

variable {Cpu Thread LockId : Type}

/-- The scheduler, the locks, the lock whose `lock_acquire` loop a thread is
inside after sleeping, and the threads that acquired each lock and have not
released it. -/
structure State (Cpu Thread LockId : Type) where
  sched : Sched Cpu Thread
  locks : LockId → Lock Cpu Thread
  pending : Thread → Option LockId
  acquired : LockId → Thread → Bool

/-- What a CPU does with its current thread, and what happens to queued ones. -/
inductive Action (Cpu Thread LockId : Type)
  | acquire (cpu : Cpu) (lock : LockId)
  | retry (cpu : Cpu)
  | release (cpu : Cpu) (lock : LockId)
  | switch (cpu : Cpu)
  | dispatch (cpu : Cpu) (thread : Thread)
  | migrate (thread : Thread) (cpu : Cpu)

/-- Fresh locks, no thread inside `lock_acquire`, and every CPU running what is
assigned to it. Which threads run where is arbitrary. -/
def Initial (state : State Cpu Thread LockId) : Prop :=
  Placed state.sched ∧ (∀ lock, state.locks lock = lockCreate) ∧
    (∀ thread, state.pending thread = none) ∧ ∀ lock thread, state.acquired lock thread = false

section

variable [DecidableEq Cpu] [DecidableEq Thread] [DecidableEq LockId]
  (state : State Cpu Thread LockId)

/-- One section of `lock_acquire` by the current thread of a CPU. Going to sleep
gives the CPU up. -/
def attempt (cpu : Cpu) (thread : Thread) (name : LockId) : State Cpu Thread LockId :=
  match lockAcquire cpu thread (state.locks name) with
  | .sleeps lock => {
      state with
      sched := state.sched.putAway cpu thread .sleep
      locks := update state.locks name lock
      pending := update state.pending thread (some name) }
  | .takes lock => {
      state with
      locks := update state.locks name lock
      pending := update state.pending thread none
      acquired := update state.acquired name (update (state.acquired name) thread true) }

/-- The transition function. A thread inside `lock_acquire` can only go on with
it; preemption may strike it anywhere. -/
def next : Action Cpu Thread LockId → Option (State Cpu Thread LockId)
  | .acquire cpu name => do
    let thread ← state.sched.curthread cpu
    if state.pending thread = none then some (attempt state cpu thread name) else none
  | .retry cpu => do
    let thread ← state.sched.curthread cpu
    let name ← state.pending thread
    some (attempt state cpu thread name)
  | .release cpu name => do
    let thread ← state.sched.curthread cpu
    if state.pending thread = none ∧ state.acquired name thread = true then
      let (woken, lock) ← lockRelease (some cpu) (state.locks name)
      some {
        state with
        sched := state.sched.makeRunnable woken
        locks := update state.locks name lock
        acquired := update state.acquired name (update (state.acquired name) thread false) }
    else none
  | .switch cpu => do
    let thread ← state.sched.curthread cpu
    some { state with sched := state.sched.putAway cpu thread .ready }
  | .dispatch cpu thread =>
    if state.sched.curthread cpu = none ∧ state.sched.mode thread = .ready ∧
        state.sched.cpu thread = cpu then
      some { state with sched := state.sched.pick cpu thread }
    else none
  | .migrate thread cpu =>
    if state.sched.mode thread = .ready then
      some { state with sched := state.sched.migrate thread cpu }
    else none

end

/-- The lock answers truthfully: for the current thread of each CPU, and each
lock, `lock_do_i_hold` says yes exactly when that thread acquired the lock and
has not released it, and a release gets past its assertion exactly then. -/
def Truthful [DecidableEq Cpu] (state : State Cpu Thread LockId) : Prop :=
  ∀ cpu thread name, state.sched.curthread cpu = some thread →
    (lockDoIHold (some cpu) (state.locks name) = true ↔ state.acquired name thread = true) ∧
      ((lockRelease (some cpu) (state.locks name)).isSome = true ↔
        state.acquired name thread = true)

/-- The current thread of a CPU has no lock. -/
def Unencumbered (state : State Cpu Thread LockId) (cpu : Cpu) : Prop :=
  ∀ thread, state.sched.curthread cpu = some thread → ∀ name, state.acquired name thread = false

/-- A step takes a thread off its CPU only while that thread has no lock: a
preemption always takes it off, an attempt does when the lock's count is zero. -/
def StaysPut (state : State Cpu Thread LockId) : Action Cpu Thread LockId → Prop
  | .switch cpu => Unencumbered state cpu
  | .acquire cpu name => (state.locks name).count = 0 → Unencumbered state cpu
  | .retry cpu => ∀ thread name, state.sched.curthread cpu = some thread →
      state.pending thread = some name → (state.locks name).count = 0 → Unencumbered state cpu
  | _ => True

/-- An owner runs on the CPU the lock recorded, and a recorded CPU runs an owner. Sleepers are
on the channel of the lock they are pending on, once. -/
structure Kept (sched : Sched Cpu Thread) (pending : Thread → Option LockId) (name : LockId)
    (lock : Lock Cpu Thread) (acquired : Thread → Bool) : Prop where
  owned : ∀ thread, acquired thread = true → sched.mode thread = .run ∧
    lock.holder = some (sched.cpu thread) ∧ lock.count = 0
  recorded : ∀ cpu, lock.holder = some cpu →
    ∃ thread, sched.curthread cpu = some thread ∧ acquired thread = true
  counted : lock.count ≤ 1 ∧ (lock.count = 0 → lock.holder ≠ none)
  queued : ∀ thread, thread ∈ lock.wchan →
    sched.mode thread = .sleep ∧ pending thread = some name
  distinct : lock.wchan.Nodup

/-- Every lock is kept so. -/
structure Anchored (state : State Cpu Thread LockId) : Prop where
  placed : Placed state.sched
  locks : ∀ name, Kept state.sched state.pending name (state.locks name) (state.acquired name)

attribute [local simp] Sched.putAway lockCreate Sched.pick

theorem initial_anchored (state : State Cpu Thread LockId) (initial : Initial state) :
    Anchored state := by
  obtain ⟨placed, created, _, nobody⟩ := initial
  refine ⟨placed, fun name => ?_⟩
  rw [created name]
  constructor <;> simp [nobody name]

variable {state : State Cpu Thread LockId} {thread : Thread} {cpu : Cpu} {name : LockId}

/-- A step that moves neither the owners of a lock nor the threads on its channel. -/
theorem Kept.frame {before after : Sched Cpu Thread} {pending later : Thread → Option LockId}
    {lock : Lock Cpu Thread} {acquired : Thread → Bool}
    (kept : Kept before pending name lock acquired)
    (owners : ∀ thread, acquired thread = true → after.mode thread = before.mode thread ∧
      after.cpu thread = before.cpu thread)
    (current : ∀ cpu thread, acquired thread = true → before.curthread cpu = some thread →
      after.curthread cpu = some thread)
    (sleepers : ∀ thread, thread ∈ lock.wchan → after.mode thread = before.mode thread ∧
      later thread = pending thread) : Kept after later name lock acquired where
  owned := by
    intro thread owns
    rw [(owners thread owns).1, (owners thread owns).2]
    exact kept.owned thread owns
  recorded := by
    intro cpu held
    obtain ⟨owner, running, owns⟩ := kept.recorded cpu held
    exact ⟨owner, current cpu owner owns running, owns⟩
  counted := kept.counted
  queued := by
    intro thread member
    rw [(sleepers thread member).1, (sleepers thread member).2]
    exact kept.queued thread member
  distinct := kept.distinct

theorem Anchored.not_queued (anchored : Anchored state)
    (current : state.sched.curthread cpu = some thread) (name : LockId) :
    thread ∉ (state.locks name).wchan := by
  intro member
  have asleep := ((anchored.locks name).queued thread member).1
  have running := ((anchored.placed cpu thread).mp current).1
  simp [asleep] at running

/-- A lock whose count is positive is recorded to nobody. -/
theorem Anchored.free (anchored : Anchored state) (positive : 0 < (state.locks name).count) :
    ∀ thread, state.acquired name thread ≠ true := by
  intro thread owns
  have taken := ((anchored.locks name).owned thread owns).2.2
  omega

/-- A lock has one owner: all its owners run on the one CPU it recorded. -/
theorem Anchored.owner_unique (anchored : Anchored state) {first second : Thread}
    (firstOwns : state.acquired name first = true)
    (secondOwns : state.acquired name second = true) :
    first = second := by
  obtain ⟨firstRuns, firstHeld, _⟩ := (anchored.locks name).owned first firstOwns
  obtain ⟨secondRuns, secondHeld, _⟩ := (anchored.locks name).owned second secondOwns
  have sameCpu : state.sched.cpu first = state.sched.cpu second :=
    Option.mem_unique firstHeld secondHeld
  have firstCurrent := (anchored.placed _ first).mpr ⟨firstRuns, sameCpu⟩
  have secondCurrent := (anchored.placed _ second).mpr ⟨secondRuns, rfl⟩
  exact Option.mem_unique firstCurrent secondCurrent

section

variable [DecidableEq Thread]

section

variable (anchored : Anchored state) (current : state.sched.curthread cpu = some thread)

include anchored current

/-- An attempt that finds a positive count makes the caller the only owner and
records the CPU it runs on. -/
theorem attempt_takes_anchored [DecidableEq LockId] (positive : 0 < (state.locks name).count) :
    Anchored { state with
      locks := update state.locks name
        ⟨(state.locks name).count - 1, some cpu, (state.locks name).wchan⟩
      pending := update state.pending thread none
      acquired := update state.acquired name (update (state.acquired name) thread true) } := by
  have before := anchored.locks name
  have single : (state.locks name).count = 1 := by
    have bound := before.counted.1
    omega
  obtain ⟨running, here⟩ := (anchored.placed cpu thread).mp current
  have waiting (other : LockId) (member : Thread) (inside : member ∈ (state.locks other).wchan) :
      update state.pending thread none member = state.pending member := by
    refine update_of_ne ?_ _ _
    rintro rfl
    exact anchored.not_queued current other inside
  refine ⟨anchored.placed, fun other => ?_⟩
  obtain rfl | same := eq_or_ne other name
  · simp only [update_self]
    refine ⟨fun owner owns => ?_, fun holder held => ?_, by simp [single], ?_, before.distinct⟩
    · have self : owner = thread := by
        by_contra different
        exact anchored.free positive owner (by simpa [different] using owns)
      simp [self, running, here, single]
    · exact ⟨thread, Option.some.inj held ▸ current, by simp⟩
    · intro member inside
      rw [waiting other member inside]
      exact before.queued member inside
  · simp only [update_of_ne same]
    exact (anchored.locks other).frame (fun _ _ => ⟨rfl, rfl⟩) (fun _ _ _ => id)
      (fun member inside => ⟨rfl, waiting other member inside⟩)

variable [DecidableEq Cpu]

/-- Putting away a thread without locks leaves every lock kept. -/
theorem Anchored.put_away (unencumbered : Unencumbered state cpu) (mode : Mode)
    {later : Thread → Option LockId}
    (others : ∀ other, other ≠ thread → later other = state.pending other) (name : LockId) :
    Kept (state.sched.putAway cpu thread mode) later name (state.locks name)
      (state.acquired name) := by
  refine (anchored.locks name).frame (fun owner owns => ?_) (fun other owner owns running => ?_)
    (fun member inside => ?_)
  · have different : owner ≠ thread := by
      rintro rfl
      simp [unencumbered owner current name] at owns
    simp [different]
  · have different : other ≠ cpu := by
      rintro rfl
      simp [unencumbered owner running name] at owns
    simpa [different] using running
  · have different : member ≠ thread := by
      rintro rfl
      exact anchored.not_queued current name inside
    exact ⟨by simp [different], others member different⟩

/-- An attempt that finds the count at zero queues a thread without locks. -/
theorem attempt_sleeps_anchored [DecidableEq LockId]
    (empty : (state.locks name).count = 0) (unencumbered : Unencumbered state cpu) :
    Anchored { state with
      sched := state.sched.putAway cpu thread .sleep
      locks := update state.locks name
        ⟨0, (state.locks name).holder, (state.locks name).wchan ++ [thread]⟩
      pending := update state.pending thread (some name) } := by
  refine ⟨put_away_placed anchored.placed current (by decide), fun other => ?_⟩
  have kept := anchored.put_away current unencumbered .sleep
    (fun other different => update_of_ne different (some name) state.pending) other
  obtain rfl | same := eq_or_ne other name
  · simp only [update_self]
    refine ⟨empty ▸ kept.owned, kept.recorded, by simpa [empty] using kept.counted.2, ?_, ?_⟩
    · intro member inside
      rcases List.mem_append.mp inside with before | last
      · exact kept.queued member before
      · simp [List.mem_singleton.mp last]
    · have apart : ∀ member ∈ (state.locks other).wchan, member ≠ thread := by
        rintro member inside rfl
        exact anchored.not_queued current other inside
      simpa [List.nodup_append, kept.distinct] using apart
  · simpa only [update_of_ne same] using kept

/-- Both outcomes of an attempt keep owners where they are recorded, provided a
thread that goes to sleep has no lock. -/
theorem attempt_anchored [DecidableEq LockId] (name : LockId)
    (staysPut : (state.locks name).count = 0 → Unencumbered state cpu) :
    Anchored (attempt state cpu thread name) := by
  rcases lock_acquire_cases cpu thread (state.locks name) with ⟨empty, sleeps⟩ | ⟨positive, takes⟩
  · simp only [attempt, sleeps]
    exact attempt_sleeps_anchored anchored current empty (staysPut empty)
  · simp only [attempt, takes]
    exact attempt_takes_anchored anchored current positive

/-- A release that gets past its assertion frees the lock and wakes a sleeper,
which holds nothing and runs nowhere. -/
theorem release_anchored [DecidableEq LockId]
    {woken : Option Thread} {lock : Lock Cpu Thread} (owns : state.acquired name thread = true)
    (released : lockRelease (some cpu) (state.locks name) = some (woken, lock)) :
    Anchored { state with
      sched := state.sched.makeRunnable woken
      locks := update state.locks name lock
      acquired := update state.acquired name (update (state.acquired name) thread false) } := by
  obtain ⟨_, raised, forgotten, channel⟩ :=
    lock_release_returns released
  have before := anchored.locks name
  have counted : lock.count = 1 := by
    have taken := (before.owned thread owns).2.2
    omega
  obtain ⟨distinct, remaining, asleep, _⟩ := wakeone_exact before.distinct channel
  obtain ⟨sameCpus, sameCurrent, unchanged⟩ := make_runnable_frame state.sched woken
  have slept (member : Thread) (taken : woken = some member) :=
    before.queued member (asleep member taken)
  refine ⟨make_runnable_placed _ anchored.placed (fun member taken => (slept member taken).1),
    fun other => ?_⟩
  obtain rfl | same := eq_or_ne other name
  · simp only [update_self]
    refine ⟨fun owner ownsToo => ?_, by simp [forgotten], by simp [counted], ?_, distinct⟩
    · have different : owner ≠ thread := by
        rintro rfl
        simp at ownsToo
      have ownsToo : state.acquired other owner = true := by simpa [different] using ownsToo
      exact absurd (anchored.owner_unique ownsToo owns) different
    · intro member inside
      obtain ⟨inside, stays⟩ := (remaining member).mp inside
      rw [unchanged member stays]
      exact before.queued member inside
  · simp only [update_of_ne same]
    have kept := anchored.locks other
    refine kept.frame (fun owner ownsOther => ⟨unchanged owner fun taken => ?_, by rw [sameCpus]⟩)
      (fun _ _ _ => sameCurrent ▸ id) (fun member inside => ⟨unchanged member fun taken => ?_, rfl⟩)
    · have running := (kept.owned owner ownsOther).1
      simp [(slept owner taken).1] at running
    · exact same (Option.mem_unique (kept.queued member inside).2 (slept member taken).2)

theorem switch_anchored (unencumbered : Unencumbered state cpu) :
    Anchored { state with sched := state.sched.putAway cpu thread .ready } := by
  exact ⟨put_away_placed anchored.placed current (by decide),
    anchored.put_away current unencumbered .ready (fun _ _ => rfl)⟩

end

theorem migrate_anchored (cpu : Cpu) (anchored : Anchored state)
    (ready : state.sched.mode thread = .ready) :
    Anchored { state with sched := state.sched.migrate thread cpu } := by
  refine ⟨migrate_placed _ anchored.placed ready, fun name => ?_⟩
  have kept := anchored.locks name
  refine kept.frame (fun owner owns => ⟨rfl, ?_⟩) (fun _ _ _ => id) (fun _ _ => ⟨rfl, rfl⟩)
  have different : owner ≠ thread := by
    rintro rfl
    simpa [ready] using (kept.owned owner owns).1
  simp [Sched.migrate, different]

variable [DecidableEq Cpu]

theorem dispatch_anchored (anchored : Anchored state)
    (idle : state.sched.curthread cpu = none) (ready : state.sched.mode thread = .ready)
    (assigned : state.sched.cpu thread = cpu) :
    Anchored { state with sched := state.sched.pick cpu thread } := by
  refine ⟨pick_placed anchored.placed idle ready assigned, fun name => ?_⟩
  have kept := anchored.locks name
  refine kept.frame (fun owner owns => ?_) (fun other owner _ running => ?_)
    (fun member inside => ?_)
  · have different : owner ≠ thread := by
      rintro rfl
      simpa [ready] using (kept.owned owner owns).1
    simp [different]
  · have different : other ≠ cpu := by
      rintro rfl
      simp [idle] at running
    simpa [different] using running
  · have different : member ≠ thread := by
      rintro rfl
      simpa [ready] using (kept.queued member inside).1
    simp [different]

/-- Every step that leaves owners on their CPUs keeps owners and records together. -/
theorem next_anchored [DecidableEq LockId]
    {state : State Cpu Thread LockId} (action : Action Cpu Thread LockId)
    {after : State Cpu Thread LockId} (anchored : Anchored state)
    (staysPut : StaysPut state action) (taken : next state action = some after) :
    Anchored after := by
  cases action with simp only [next, Option.bind_eq_bind, Option.bind_eq_some_iff] at taken
  | acquire cpu name =>
    obtain ⟨thread, current, taken⟩ := taken
    split at taken
    · exact Option.some.inj taken ▸
        attempt_anchored anchored current name staysPut
    · cases taken
  | retry cpu =>
    obtain ⟨thread, current, name, pending, taken⟩ := taken
    exact Option.some.inj taken ▸ attempt_anchored anchored current name
      (staysPut thread name current pending)
  | release cpu name =>
    obtain ⟨thread, current, taken⟩ := taken
    split at taken
    · rename_i allowed
      obtain ⟨⟨woken, lock⟩, released, taken⟩ := Option.bind_eq_some_iff.mp taken
      exact Option.some.inj taken ▸
        release_anchored anchored current allowed.2 released
    · cases taken
  | switch cpu =>
    obtain ⟨thread, current, taken⟩ := taken
    exact Option.some.inj taken ▸ switch_anchored anchored current staysPut
  | dispatch cpu thread =>
    split at taken
    · rename_i allowed
      exact Option.some.inj taken ▸
        dispatch_anchored anchored allowed.1 allowed.2.1 allowed.2.2
    · cases taken
  | migrate thread cpu =>
    split at taken
    · rename_i ready
      exact Option.some.inj taken ▸ migrate_anchored cpu anchored ready
    · cases taken

end

/-- While owners run where they are recorded, the answer about the CPU is the
answer about its thread. -/
theorem anchored_truthful [DecidableEq Cpu] (anchored : Anchored state) : Truthful state := by
  intro cpu thread name current
  have answer : lockDoIHold (some cpu) (state.locks name) = true ↔
      state.acquired name thread = true := by
    simp only [lockDoIHold, decide_eq_true_eq]
    constructor
    · intro held
      obtain ⟨owner, running, owns⟩ := (anchored.locks name).recorded cpu held
      have same : owner = thread := Option.mem_unique running current
      exact same ▸ owns
    · intro owns
      rw [((anchored.locks name).owned thread owns).2.1, ((anchored.placed cpu thread).mp current).2]
  refine ⟨answer, ?_⟩
  by_cases taken : (state.locks name).count = 0
  · rw [lock_release_taken cpu taken]
    exact answer
  · have nobody := anchored.free (Nat.pos_of_ne_zero taken) thread
    have refused : lockDoIHold (some cpu) (state.locks name) = false :=
      Bool.eq_false_iff.mpr (fun held => nobody (answer.mp held))
    simp [lockRelease, refused, nobody]

/-- In every run in which no thread is taken off its CPU while it has a lock,
every state reached answers truthfully: the real owner is recognised and can
release, and everybody else is turned away. -/
theorem truthful_while_owners_stay [DecidableEq Cpu] [DecidableEq Thread] [DecidableEq LockId]
    (state : State Cpu Thread LockId) (reached : Reaches next StaysPut Initial state) :
    Truthful state :=
  anchored_truthful (reached.invariant initial_anchored
    (fun _ action _ anchored staysPut taken =>
      next_anchored action anchored staysPut taken))

/-- Two threads on the first of two CPUs, one of them running, and one lock. -/
def twoThreads : State Bool Bool Unit where
  sched := {
    curthread := fun cpu => if cpu then some true else none
    cpu := fun _ => true
    mode := fun thread => if thread then .run else .ready }
  locks := fun _ => lockCreate
  pending := fun _ => none
  acquired := fun _ _ => false

theorem two_threads_initial : Initial twoThreads := by
  refine ⟨?_, fun _ => rfl, fun _ => rfl, fun _ _ => rfl⟩
  intro cpu thread
  cases cpu <;> cases thread <;> simp [twoThreads]

/-- A thread takes the lock, gives it back, moves to the other CPU and takes the
lock again there. -/
def handover : List (Action Bool Bool Unit) :=
  [.acquire true (), .release true (), .switch true, .migrate true false, .dispatch false true,
    .acquire false (), .dispatch true false]

/-- The owner is preempted, and another thread is picked on its CPU. -/
def preempted : List (Action Bool Bool Unit) :=
  [.acquire true (), .switch true, .dispatch true false]

/-- The owner is preempted, moved to the other CPU and picked there. -/
def moved : List (Action Bool Bool Unit) :=
  [.acquire true (), .switch true, .migrate true false, .dispatch false true]

instance [Fintype Thread] [DecidableEq Thread] [Fintype LockId] (state : State Cpu Thread LockId)
    (cpu : Cpu) : Decidable (Unencumbered state cpu) := by
  unfold Unencumbered
  infer_instance

instance (state : State Bool Bool Unit) (action : Action Bool Bool Unit) :
    Decidable (StaysPut state action) := by
  cases action <;> unfold StaysPut <;> infer_instance

/-- A run with a handover between the CPUs that never moves an owner. -/
theorem truthful_after_handover :
    ∃ state, exec next twoThreads handover = some state ∧
      state.acquired () true = true ∧ Truthful state := by
  exact ⟨_, rfl, rfl, truthful_while_owners_stay _ (@reaches_of_permitted _ _ _ _ StaysPut _ _ _
    (fun _ _ => id) handover (.start _ two_threads_initial) (by decide) rfl)⟩

/-- The owner is preempted and another thread runs on the same CPU: the lock
tells that thread that it holds the lock, and lets it release. The owner is moved
to the other CPU instead: the lock denies it, and its release fails. -/
theorem untruthful_after_preemption : (∃ state, exec next twoThreads preempted = some state ∧
      Reaches next Anything Initial state ∧
      state.sched.curthread true = some false ∧ state.acquired () false = false ∧
      lockDoIHold (some true) (state.locks ()) = true ∧
      (lockRelease (some true) (state.locks ())).isSome = true ∧ ¬ Truthful state) ∧
    (∃ state, exec next twoThreads moved = some state ∧ Reaches next Anything Initial state ∧
      state.sched.curthread false = some true ∧ state.acquired () true = true ∧
      lockRelease (some false) (state.locks ()) = none ∧ ¬ Truthful state) := by
  constructor
  · refine ⟨_, rfl, reaches_of_exec Initial preempted
      two_threads_initial rfl, rfl, rfl, rfl, rfl, ?_⟩
    intro truthful
    exact Bool.false_ne_true ((truthful true false () rfl).1.mp rfl)
  · refine ⟨_, rfl, reaches_of_exec Initial moved two_threads_initial rfl, rfl, rfl, rfl, ?_⟩
    intro truthful
    exact Bool.false_ne_true ((truthful false true () rfl).1.mpr rfl)

end Os161.Synch.Ownership
