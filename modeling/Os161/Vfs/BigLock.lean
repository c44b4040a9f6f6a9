import Os161.Synch.Ownership

/-!
# The recursive big lock of the VFS layer

`vfs_biglock_acquire` asks `lock_do_i_hold` whether to take the lock at all and
then counts one level deeper; `vfs_biglock_release` counts back and releases the
lock at level zero. The counter is shared, so it means something only while the
answer is about the calling thread. Every test, spinlock section and counter
update is a step of its own here, and any thread may be preempted between two of
them. Calls are properly nested: a thread leaves only what it entered.

The lock and the scheduler are those of `Ownership`, with a single lock. Exclusion
and an exact depth hold in the runs that never take the lock's owner off its CPU.
-/
namespace Os161.Vfs.BigLock

open Os161.Library.Runs Os161.Synch Os161.Thread Function

variable {Cpu Thread : Type}

/-- Where a thread is in the two functions: outside both, in `lock_acquire` after
the test failed, about to count deeper, or about to release at depth zero. -/
inductive Pc
  | outside
  | acquiring
  | entering
  | leaving
  deriving DecidableEq

/-- The kernel with `vfs_biglock` as its only lock, `vfs_biglock_depth`, the place
of each thread, and the levels each thread has entered and not left. -/
structure State (Cpu Thread : Type) where
  kernel : Ownership.State Cpu Thread Unit
  depth : Nat
  pc : Thread → Pc
  nest : Thread → Nat

/-- The current thread of a CPU takes one step, or the scheduler does. -/
inductive Action (Cpu Thread : Type)
  | test (cpu : Cpu)
  | lock (cpu : Cpu)
  | enter (cpu : Cpu)
  | leave (cpu : Cpu)
  | unlock (cpu : Cpu)
  | switch (cpu : Cpu)
  | dispatch (cpu : Cpu) (thread : Thread)
  | migrate (thread : Thread) (cpu : Cpu)

/-- `vfs_bootstrap` has created the lock and nobody has used it. -/
def Initial (state : State Cpu Thread) : Prop :=
  Ownership.Initial state.kernel ∧ state.depth = 0 ∧
    (∀ thread, state.pc thread = .outside) ∧ ∀ thread, state.nest thread = 0

section

variable [DecidableEq Cpu] [DecidableEq Thread] (state : State Cpu Thread) (cpu : Cpu)
  (thread : Thread)

/-- The test of `vfs_biglock_acquire`. -/
def testHeld : State Cpu Thread :=
  { state with
    pc := update state.pc thread
      (if lockDoIHold (some cpu) (state.kernel.locks ()) then .entering else .acquiring) }

/-- One section of the `lock_acquire` call of `vfs_biglock_acquire`. The thread
has the lock when it is no longer pending. -/
def lockBig : State Cpu Thread :=
  let kernel := Ownership.attempt state.kernel cpu thread ()
  { state with
    kernel := kernel
    pc := update state.pc thread (if kernel.pending thread = none then .entering else .acquiring) }

/-- The increment of `vfs_biglock_depth`, an unsigned of 32 bits. -/
def enterLevel : State Cpu Thread :=
  { state with
    depth := (state.depth + 1) % 2 ^ 32
    nest := update state.nest thread (state.nest thread + 1)
    pc := update state.pc thread .outside }

/-- `vfs_biglock_release` up to its test for depth zero, past its assertions. -/
def leaveLevel : State Cpu Thread :=
  { state with
    depth := state.depth - 1
    nest := update state.nest thread (state.nest thread - 1)
    pc := update state.pc thread (if state.depth - 1 = 0 then .leaving else .outside) }

/-- The `lock_release` call of `vfs_biglock_release`, past its assertion. After
it nobody has the lock, whoever acquired it. -/
def unlockBig (woken : Option Thread) (lock : Lock Cpu Thread) : State Cpu Thread :=
  { state with
    kernel := { state.kernel with
      sched := state.kernel.sched.makeRunnable woken
      locks := fun _ => lock
      acquired := fun _ _ => false }
    pc := update state.pc thread .outside }

/-- The transition function. -/
def next : Action Cpu Thread → Option (State Cpu Thread)
  | .test cpu => do
    let thread ← state.kernel.sched.curthread cpu
    if state.pc thread = .outside then some (testHeld state cpu thread) else none
  | .lock cpu => do
    let thread ← state.kernel.sched.curthread cpu
    if state.pc thread = .acquiring then some (lockBig state cpu thread) else none
  | .enter cpu => do
    let thread ← state.kernel.sched.curthread cpu
    if state.pc thread = .entering then some (enterLevel state thread) else none
  | .leave cpu => do
    let thread ← state.kernel.sched.curthread cpu
    if state.pc thread = .outside ∧ 0 < state.nest thread ∧
        lockDoIHold (some cpu) (state.kernel.locks ()) = true ∧ 0 < state.depth then
      some (leaveLevel state thread)
    else none
  | .unlock cpu => do
    let thread ← state.kernel.sched.curthread cpu
    if state.pc thread = .leaving then
      (lockRelease (some cpu) (state.kernel.locks ())).map (fun result =>
        unlockBig state thread result.1 result.2)
    else none
  | .switch cpu =>
    (Ownership.next state.kernel (.switch cpu)).map ({ state with kernel := · })
  | .dispatch cpu thread =>
    (Ownership.next state.kernel (.dispatch cpu thread)).map ({ state with kernel := · })
  | .migrate thread cpu =>
    (Ownership.next state.kernel (.migrate thread cpu)).map ({ state with kernel := · })

end

attribute [local simp] testHeld

/-- At most one thread is inside a section, and the recorded depth is the level
that thread is at. -/
def Exclusive (state : State Cpu Thread) : Prop :=
  (∀ first second, 0 < state.nest first → 0 < state.nest second → first = second) ∧
    ∀ thread, 0 < state.nest thread → state.depth = state.nest thread

/-- No step takes the owner of the lock off its CPU, and no thread nests so deep
that the 32-bit counter would wrap. -/
def StaysPut (state : State Cpu Thread) : Action Cpu Thread → Prop
  | .switch cpu => Ownership.Unencumbered state.kernel cpu
  | .enter cpu => ∀ thread, state.kernel.sched.curthread cpu = some thread →
      state.nest thread + 1 < 2 ^ 32
  | _ => True

/-- Where a thread may be, given whether it owns the lock: only the owner is inside a section, or
on the way in or out of one, only others wait, and the counter is the owner's level. -/
structure Fits (owns : Bool) (depth nest : Nat) (pc : Pc) : Prop where
  inside : 0 < nest → owns = true
  entering : pc = .entering → owns = true
  leaving : pc = .leaving → owns = true ∧ nest = 0
  waiting : pc = .acquiring → owns = false
  level : owns = true → depth = nest

/-- Every thread is where it may be. -/
structure Sound (state : State Cpu Thread) : Prop where
  anchored : Ownership.Anchored state.kernel
  fits : ∀ thread, Fits (state.kernel.acquired () thread) state.depth (state.nest thread)
    (state.pc thread)
  nobody : (∀ thread, state.kernel.acquired () thread = false) → state.depth = 0

theorem initial_sound (state : State Cpu Thread) (initial : Initial state) : Sound state := by
  obtain ⟨kernel, shallow, outside, level⟩ := initial
  refine ⟨Ownership.initial_anchored state.kernel kernel, fun thread => ?_, fun _ => shallow⟩
  rw [shallow, outside, level]
  constructor <;> simp

variable {state : State Cpu Thread} {thread : Thread} {lock : Lock Cpu Thread} {cpu : Cpu}

theorem test_held_sound [DecidableEq Cpu] [DecidableEq Thread] (sound : Sound state)
    (current : state.kernel.sched.curthread cpu = some thread) :
    Sound (testHeld state cpu thread) := by
  refine { sound with fits := fun other => ?_ }
  obtain rfl | self := eq_or_ne other thread
  · have answer := (Ownership.anchored_truthful sound.anchored cpu other () current).1
    have fits := sound.fits other
    simp only [testHeld, update_self, ← Bool.eq_iff_iff.mpr answer] at fits ⊢
    generalize lockDoIHold (some cpu) (state.kernel.locks ()) = held at fits ⊢
    cases held <;>
      exact { fits with entering := by simp, leaving := by simp, waiting := by simp }
  · simpa [self] using sound.fits other

section locking

variable [DecidableEq Cpu] [DecidableEq Thread] {state : State Cpu Thread} {cpu : Cpu}
  {thread : Thread} (sound : Sound state) (acquiring : state.pc thread = .acquiring)
  (anchored : Ownership.Anchored (lockBig state cpu thread).kernel)

include sound acquiring anchored

/-- A thread that goes to sleep changes neither owners nor places. -/
theorem lock_big_sleeps_sound
    (sleeps : lockAcquire cpu thread (state.kernel.locks ()) = .sleeps lock) :
    Sound (lockBig state cpu thread) := by
  have sameOwners : (lockBig state cpu thread).kernel.acquired = state.kernel.acquired := by
    simp [lockBig, Ownership.attempt, sleeps]
  have samePlaces : (lockBig state cpu thread).pc = state.pc := by
    funext other
    by_cases self : other = thread
    · simp [lockBig, Ownership.attempt, sleeps, self, acquiring]
    · simp [lockBig, self]
  refine ⟨anchored, ?_, ?_⟩ <;> simp only [sameOwners, samePlaces]
  · exact sound.fits
  · exact sound.nobody

omit acquiring in
/-- A thread that becomes the owner finds nobody inside, so the counter is at zero. -/
theorem lock_big_takes_sound (positive : 0 < (state.kernel.locks ()).count)
    (takes : lockAcquire cpu thread (state.kernel.locks ()) = .takes lock) :
    Sound (lockBig state cpu thread) := by
  have free : ∀ other, state.kernel.acquired () other = false := fun other =>
    Bool.eq_false_iff.mpr (sound.anchored.free positive other)
  refine ⟨anchored, fun other => ?_, fun none => ?_⟩
  · have fits := sound.fits other
    obtain rfl | self := eq_or_ne other thread
    · have vacant : state.nest other = 0 := by
        by_contra deeper
        have owns := fits.inside (Nat.pos_of_ne_zero deeper)
        simp [free other] at owns
      have shallow : state.depth = 0 := sound.nobody free
      constructor <;> simp [lockBig, Ownership.attempt, takes, vacant, shallow]
    · simpa [lockBig, Ownership.attempt, takes, self] using fits
  · have owns := none thread
    simp [lockBig, Ownership.attempt, takes] at owns

end locking

section

variable (sound : Sound state)

include sound

/-- A scheduling step that keeps owners on their CPUs changes nothing else. -/
theorem schedule_sound {kernel : Ownership.State Cpu Thread Unit}
    (anchored : Ownership.Anchored kernel) (sameOwners : kernel.acquired = state.kernel.acquired) :
    Sound { state with kernel := kernel } := by
  refine ⟨anchored, ?_, ?_⟩ <;> simp only [sameOwners]
  · exact sound.fits
  · exact sound.nobody

variable [DecidableEq Thread]

/-- The owner goes to another level. It is about to release only at level zero. -/
theorem Sound.at_level {nest : Nat} {place : Pc}
    (owns : state.kernel.acquired () thread = true) (waits : place ≠ .acquiring)
    (outermost : place = .leaving → nest = 0) :
    Sound { state with
      depth := nest
      nest := update state.nest thread nest
      pc := update state.pc thread place } := by
  refine ⟨sound.anchored, fun other => ?_, fun none => ?_⟩
  · obtain rfl | self := eq_or_ne other thread
    · simp only [update_self, owns]
      exact ⟨fun _ => rfl, fun _ => rfl, fun leaving => ⟨rfl, outermost leaving⟩,
        fun acquiring => absurd acquiring waits, fun _ => rfl⟩
    · simp only [update_of_ne self]
      exact { sound.fits other with
        level := fun ownsOther => absurd (sound.anchored.owner_unique ownsOther owns) self }
  · simp [show state.kernel.acquired () thread = false from none thread] at owns

/-- The owner goes one level back, and is about to release exactly when it has
left its outermost section. -/
theorem leave_level_sound (deeper : 0 < state.nest thread) : Sound (leaveLevel state thread) := by
  have owns := (sound.fits thread).inside deeper
  unfold leaveLevel
  rw [(sound.fits thread).level owns]
  exact sound.at_level owns (by split <;> simp) (by split <;> simp_all)

variable [DecidableEq Cpu]

/-- A thread that is still waiting goes back to sleep or becomes the owner. -/
theorem lock_big_sound (current : state.kernel.sched.curthread cpu = some thread)
    (acquiring : state.pc thread = .acquiring) : Sound (lockBig state cpu thread) := by
  have stranger : state.kernel.acquired () thread = false :=
    (sound.fits thread).waiting acquiring
  have unencumbered : Ownership.Unencumbered state.kernel cpu := by
    intro other running name
    have same : thread = other := Option.mem_unique current running
    exact same ▸ stranger
  have anchored : Ownership.Anchored (lockBig state cpu thread).kernel :=
    Ownership.attempt_anchored sound.anchored current () (fun _ => unencumbered)
  rcases lock_acquire_cases cpu thread (state.kernel.locks ()) with
    ⟨_, sleeps⟩ | ⟨positive, takes⟩
  · exact lock_big_sleeps_sound sound acquiring anchored sleeps
  · exact lock_big_takes_sound sound anchored positive takes

theorem unlock_big_sound {woken : Option Thread}
    (current : state.kernel.sched.curthread cpu = some thread)
    (leaving : state.pc thread = .leaving)
    (released : lockRelease (some cpu) (state.kernel.locks ()) = some (woken, lock)) :
    Sound (unlockBig state thread woken lock) := by
  obtain ⟨owns, outermost⟩ := (sound.fits thread).leaving leaving
  have only : ∀ other, other ≠ thread → state.kernel.acquired () other = false := by
    intro other different
    exact Bool.eq_false_iff.mpr (fun ownsOther =>
      different (sound.anchored.owner_unique ownsOther owns))
  have anchored : Ownership.Anchored (unlockBig state thread woken lock).kernel := by
    have kept := Ownership.release_anchored sound.anchored current owns released
    have sameOwners : update state.kernel.acquired ()
        (update (state.kernel.acquired ()) thread false) = fun _ _ => false := by
      funext name other
      by_cases self : other = thread
      · simp [self]
      · simp [self, only other self]
    rw [sameOwners] at kept
    exact kept
  refine ⟨anchored, fun other => ?_, fun _ => ((sound.fits thread).level owns).trans outermost⟩
  obtain rfl | self := eq_or_ne other thread
  · constructor <;> simp [unlockBig, outermost]
  · simpa [unlockBig, self, only other self] using sound.fits other

/-- Every step that leaves the owner on its CPU keeps the invariant. -/
theorem next_sound {action : Action Cpu Thread}
    {after : State Cpu Thread} (staysPut : StaysPut state action)
    (taken : next state action = some after) : Sound after := by
  cases action with
    simp only [next, Option.bind_eq_bind, Option.bind_eq_some_iff, Option.ite_none_right_eq_some,
      Option.some.injEq, Option.map_eq_some_iff] at taken
  | test cpu =>
    obtain ⟨thread, current, _, rfl⟩ := taken
    exact test_held_sound sound current
  | lock cpu =>
    obtain ⟨thread, current, acquiring, rfl⟩ := taken
    exact lock_big_sound sound current acquiring
  | enter cpu =>
    obtain ⟨thread, current, entering, rfl⟩ := taken
    have fits := staysPut thread current
    have owns := (sound.fits thread).entering entering
    unfold enterLevel
    rw [(sound.fits thread).level owns, Nat.mod_eq_of_lt fits]
    exact sound.at_level owns (by simp) (by simp)
  | leave cpu =>
    obtain ⟨thread, current, allowed, rfl⟩ := taken
    exact leave_level_sound sound allowed.2.1
  | unlock cpu =>
    obtain ⟨thread, current, leaving, ⟨woken, lock⟩, released, rfl⟩ := taken
    exact unlock_big_sound sound current leaving released
  | switch cpu =>
    obtain ⟨kernel, moved, rfl⟩ := taken
    refine schedule_sound sound
      (Ownership.next_anchored (.switch cpu) sound.anchored staysPut moved) ?_
    obtain ⟨thread, _, moved⟩ := Option.bind_eq_some_iff.mp moved
    exact Option.some.inj moved ▸ rfl
  | dispatch cpu thread | migrate thread cpu =>
    obtain ⟨kernel, moved, rfl⟩ := taken
    refine schedule_sound sound (Ownership.next_anchored _ sound.anchored (by trivial) moved) ?_
    simp only [Ownership.next, guard_some] at moved
    obtain ⟨_, rfl⟩ := moved
    rfl

end

/-- In every run in which the owner of the big lock is never taken off its CPU,
and no thread nests to the width of the counter, at most one thread is inside a
section and the depth is that thread's level, in every state reached. -/
theorem exclusive_while_owner_stays [DecidableEq Cpu] [DecidableEq Thread]
    (state : State Cpu Thread) (reached : Reaches next StaysPut Initial state) :
    Exclusive state := by
  have sound : Sound state := reached.invariant initial_sound
    (fun state action after sound staysPut taken =>
      next_sound sound staysPut taken)
  constructor
  · intro first second firstInside secondInside
    exact sound.anchored.owner_unique ((sound.fits first).inside firstInside)
      ((sound.fits second).inside secondInside)
  · intro thread inside
    exact (sound.fits thread).level ((sound.fits thread).inside inside)

/-- One CPU with two threads, of which the first runs. -/
def twoThreads : State Unit Bool where
  kernel := {
    sched := {
      curthread := fun _ => some true
      cpu := fun _ => ()
      mode := fun thread => if thread then .run else .ready }
    locks := fun _ => lockCreate
    pending := fun _ => none
    acquired := fun _ _ => false }
  depth := 0
  pc := fun _ => .outside
  nest := fun _ => 0

theorem two_threads_initial : Initial twoThreads := by
  refine ⟨⟨?_, fun _ => rfl, fun _ => rfl, fun _ _ => rfl⟩, rfl, fun _ => rfl, fun _ => rfl⟩
  intro cpu thread
  cases thread <;> simp [twoThreads]

/-- The first thread enters twice. -/
def nested : List (Action Unit Bool) :=
  [.test (), .lock (), .enter (), .test (), .enter ()]

instance (state : State Unit Bool) (action : Action Unit Bool) :
    Decidable (StaysPut state action) := by
  cases action <;> unfold StaysPut <;> infer_instance

/-- A nested entry by one thread. -/
theorem exclusive_when_nested :
    ∃ state, exec next twoThreads nested = some state ∧ state.depth = 2 ∧
      state.nest true = 2 ∧ Exclusive state := by
  exact ⟨_, rfl, rfl, rfl, exclusive_while_owner_stays _ (@reaches_of_permitted _ _ _ _ StaysPut
    _ _ _ (fun _ _ => id) nested (.start _ two_threads_initial) (by decide) rfl)⟩

/-- The first thread enters and is preempted; the second enters on the same CPU. -/
def takenOver : List (Action Unit Bool) :=
  [.test (), .lock (), .enter (), .switch (), .dispatch () false, .test (), .enter ()]

/-- The second thread is told that it holds the lock. Both are inside at level
one, and the recorded depth is two. -/
theorem inside_together_after_preemption :
    ∃ state, exec next twoThreads takenOver = some state ∧ Reaches next Anything Initial state ∧
      state.nest true = 1 ∧ state.nest false = 1 ∧ state.depth = 2 ∧ ¬ Exclusive state := by
  refine ⟨_, rfl, reaches_of_exec Initial takenOver two_threads_initial rfl,
    rfl, rfl, rfl, ?_⟩
  intro exclusive
  have same : true = false := exclusive.1 true false (by decide) (by decide)
  cases same

end Os161.Vfs.BigLock
