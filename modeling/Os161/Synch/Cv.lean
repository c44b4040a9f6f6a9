import Os161.Library.Places
import Os161.Synch.SleepLock

/-!
# Condition variables with one lock

Any number of threads acquire one sleep lock, wait on one condition variable, signal it and
broadcast to it. A step is one section of the lock's spinlock or of the condition
variable's. `cv_wait` takes the spinlock of the condition variable first, releases the lock
while it has it, and lets go of it only by going to sleep, so that these are three steps
with the spinlock held in between. A signaller releases the lock before it asks for that
spinlock, and takes the lock again afterwards.

Each thread carries the time at which it last acquired the lock and the time at which it
released the lock in its current `cv_wait`. An assertion that fails stops the kernel and
has no successor. Threads wait and signal only while they have the lock.
-/
namespace Os161.Synch.Cv

open Os161.Library.Runs Os161.Library.Places Os161.Synch.SleepLock Function

variable {Cpu Thread : Type}

/-- `cv_signal` and `cv_broadcast`. -/
inductive Kind
  | signal
  | broadcast
  deriving DecidableEq

/-- Who has called `lock_acquire`: the thread itself, `cv_wait`, or a signaller. -/
inductive Caller
  | thread
  | waiter
  | signaller
  deriving DecidableEq

/-- Where a thread is. -/
inductive Place
  | outside
  | locking (caller : Caller) (phase : Phase)
  | holding
  | waitLocked
  | waitReleased
  | waitAsleep
  | waitWoken
  | waking (kind : Kind)
  deriving DecidableEq

/-- A thread that has acquired the lock and not released it. -/
def Place.HasLock (place : Place) : Prop := place = .holding ∨ place = .waitLocked

/-- A thread that has the spinlock of the condition variable. -/
def Place.HasCvLock (place : Place) : Prop := place = .waitLocked ∨ place = .waitReleased

/-- A thread on the lock's wait channel. -/
def Place.LockAsleep (place : Place) : Prop := ∃ caller, place = .locking caller .asleep

/-- A thread in `cv_wait` that has been woken. -/
def Place.Resuming (place : Place) : Prop :=
  place = .waitWoken ∨ ∃ phase, place = .locking .waiter phase

/-- A thread in `cv_wait` that has released the lock. -/
def Place.Waiting (place : Place) : Prop :=
  place = .waitReleased ∨ place = .waitAsleep ∨ place.Resuming

/-- A thread inside `cv_wait`. -/
def Place.InWait (place : Place) : Prop := place = .waitLocked ∨ place.Waiting

/-- Who is to return from `lock_acquire` if its thread runs the section and succeeds. -/
def Place.attempting : Place → Option Caller
  | .locking caller .running | .locking caller .woken => some caller
  | _ => none

/-- What a thread that has released the lock in order to wake waiters is about to do. -/
def Place.about : Place → Option Kind
  | .waking kind => some kind
  | _ => none

/-- The lock, `cv_lock`, `cv_count` and `cv_wchan` of the condition variable, the place of
each thread, the times, and which threads have been woken in their current `cv_wait`. -/
structure State (Cpu Thread : Type) where
  lock : Lock Cpu Thread
  cvLock : Option Thread
  cvCount : UInt32
  cvWchan : List Thread
  place : Thread → Place
  clock : Nat
  acquiredAt : Thread → Nat
  releasedAt : Thread → Nat
  woken : Thread → Bool

/-- A thread that has released the lock inside `cv_wait` before another acquired it. -/
def Earlier (state : State Cpu Thread) (waiter signaller : Thread) : Prop :=
  (state.place waiter).Waiting ∧ state.releasedAt waiter < state.acquiredAt signaller

/-- A lock and a condition variable that have just been created. -/
def Initial (state : State Cpu Thread) : Prop :=
  state.lock = lockCreate ∧ state.cvLock = none ∧ state.cvWchan = [] ∧
    ∀ thread, state.place thread = .outside

/-- The sections a thread can run, on whatever CPU it is on. -/
inductive Action (Cpu Thread : Type)
  | acquire (thread : Thread) (cpu : Cpu)
  | retry (thread : Thread) (cpu : Cpu)
  | release (thread : Thread) (cpu : Cpu)
  | wait (thread : Thread) (cpu : Cpu)
  | waitRelease (thread : Thread) (cpu : Cpu)
  | waitSleep (thread : Thread)
  | waitResume (thread : Thread)
  | call (thread : Thread) (cpu : Cpu) (kind : Kind)
  | wakeup (thread : Thread)

/-- The lock has at most one owner, which the count says, and its channel has the threads
asleep in `lock_acquire`. -/
structure LockSound (lock : Lock Cpu Thread) (place : Thread → Place) : Prop where
  owned : (lock.count = 1 ∧ ∀ thread, ¬ (place thread).HasLock) ∨
    (lock.count = 0 ∧ ∃ owner, ∀ thread, (place thread).HasLock ↔ thread = owner)
  queue : Lists lock.wchan place Place.LockAsleep

/-- What is recorded of a thread: whether it has the spinlock, when it released the lock if it
is about to sleep, and whether it has been woken. -/
structure Recorded (state : State Cpu Thread) (thread : Thread) : Prop where
  guarded : (state.place thread).HasCvLock ↔ state.cvLock = some thread
  latest : state.place thread = .waitReleased → state.releasedAt thread < state.clock ∧
    ∀ other, other ∈ state.cvWchan → state.releasedAt other < state.releasedAt thread
  resumed : (state.place thread).Resuming → state.woken thread = true
  unwoken : state.place thread = .waitReleased ∨ state.place thread = .waitAsleep →
    state.woken thread = false

/-- The channel has the sleepers in the order in which they released the lock. -/
structure CvSound (state : State Cpu Thread) : Prop where
  queue : Lists state.cvWchan state.place (· = .waitAsleep)
  ordered : state.cvWchan.Pairwise (fun first second =>
    state.releasedAt first < state.releasedAt second)
  past : ∀ thread, thread ∈ state.cvWchan → state.releasedAt thread < state.clock
  recorded : ∀ thread, Recorded state thread

/-- What every section keeps. -/
structure Sound (state : State Cpu Thread) : Prop where
  lock : LockSound state.lock state.place
  cv : CvSound state

variable {state after : State Cpu Thread} {thread : Thread} {onward : Place}
  {lock : Lock Cpu Thread} {place : Thread → Place} {cpu : Cpu}

/-- Moves that neither acquire nor release the lock, nor go to sleep on it. -/
theorem LockSound.alike {moved : Thread → Place} (sound : LockSound lock place)
    (owners : ∀ thread, (place thread).HasLock ↔ (moved thread).HasLock)
    (sleepers : ∀ thread, (place thread).LockAsleep ↔ (moved thread).LockAsleep) :
    LockSound lock moved := by
  refine ⟨?_, sound.queue.all_unaffected sleepers⟩
  rcases sound.owned with ⟨free, nobody⟩ | ⟨taken, owner, only⟩
  · exact Or.inl ⟨free, fun thread has => nobody thread ((owners thread).mpr has)⟩
  · exact Or.inr ⟨taken, owner, fun thread => (owners thread).symm.trans (only thread)⟩

/-- A place that has nothing to do with the condition variable's spinlock or channel. -/
def Place.Apart (place : Place) : Prop := ¬ place.HasCvLock ∧ place ≠ .waitAsleep

attribute [local simp] Place.HasLock Place.LockAsleep Place.Resuming Place.HasCvLock Place.InWait
  Place.Waiting Place.Apart

/-- A thread at such a place. -/
theorem Place.Apart.recorded (apart : (state.place thread).Apart)
    (unlocked : state.cvLock ≠ some thread)
    (resumed : (state.place thread).Resuming → state.woken thread = true) :
    Recorded state thread where
  guarded := iff_of_false apart.1 unlocked
  latest := fun released => absurd (Or.inr released) apart.1
  resumed := resumed
  unwoken := fun waiting => (waiting.elim (fun released => apart.1 (Or.inr released)) apart.2).elim

/-- A thread that stays where it is, while other threads take the spinlock, give it back or leave
the channel. -/
theorem Recorded.still (recorded : Recorded state thread)
    (place : after.place thread = state.place thread)
    (cvLock : state.cvLock = some thread ↔ after.cvLock = some thread)
    (cvWchan : ∀ other, other ∈ after.cvWchan → other ∈ state.cvWchan)
    (releasedAt : after.releasedAt = state.releasedAt) (clock : state.clock ≤ after.clock)
    (woken : after.woken thread = state.woken thread) : Recorded after thread := by
  constructor
  · rw [place]
    exact recorded.guarded.trans cvLock
  · intro released
    obtain ⟨past, latest⟩ := recorded.latest (place ▸ released)
    rw [releasedAt]
    exact ⟨Nat.lt_of_lt_of_le past clock, fun other member => latest other (cvWchan other member)⟩
  · rw [place, woken]
    exact recorded.resumed
  · rw [place, woken]
    exact recorded.unwoken

/-- Moves between places apart, by threads that have been woken if they are to resume. -/
theorem CvSound.apart (sound : CvSound state) (cvLock : after.cvLock = state.cvLock)
    (cvWchan : after.cvWchan = state.cvWchan) (releasedAt : after.releasedAt = state.releasedAt)
    (woken : after.woken = state.woken) (clock : state.clock ≤ after.clock)
    (moves : ∀ thread, after.place thread = state.place thread ∨
      (state.place thread).Apart ∧ (after.place thread).Apart ∧
        ((after.place thread).Resuming → state.woken thread = true)) : CvSound after := by
  refine ⟨?_, ?_, ?_, ?_⟩
  · rw [cvWchan]
    refine sound.queue.all_unaffected (fun thread => ?_)
    rcases moves thread with same | ⟨before, now, _⟩
    · rw [same]
    · exact iff_of_false before.2 now.2
  · rw [cvWchan, releasedAt]
    exact sound.ordered
  · rw [cvWchan, releasedAt]
    exact fun thread member => Nat.lt_of_lt_of_le (sound.past thread member) clock
  · intro thread
    have recorded := sound.recorded thread
    rcases moves thread with same | ⟨before, now, resumed⟩
    · exact recorded.still same (by rw [cvLock]) (fun _ => cvWchan ▸ id) releasedAt clock
        (by rw [woken])
    · exact now.recorded (fun locked => before.1 (recorded.guarded.mpr (cvLock ▸ locked)))
        (woken ▸ resumed)

/-- Nobody but the thread that has the spinlock is between its release and its sleep. -/
theorem CvSound.alone (sound : CvSound state) (has : (state.place thread).HasCvLock)
    (other : Thread) (different : other ≠ thread) : ¬ (state.place other).HasCvLock := by
  intro alsoHas
  have first := (sound.recorded thread).guarded.mp has
  have second := (sound.recorded other).guarded.mp alsoHas
  exact different (Option.mem_unique second first)

theorem CvSound.unlocked (sound : CvSound state) (free : state.cvLock = none) (other : Thread) :
    ¬ (state.place other).HasCvLock := by
  rw [(sound.recorded other).guarded, free]
  exact nofun

theorem initial_sound (state : State Cpu Thread) (initial : Initial state) : Sound state := by
  obtain ⟨created, unlocked, empty, outside⟩ := initial
  refine ⟨⟨Or.inl ⟨by simp [created, lockCreate], ?_⟩, ?_⟩, ?_, ?_, ?_, fun thread => ?_⟩
  · intro thread
    simp [outside thread]
  · rw [created]
    exact Lists.nobody (by simp [outside])
  · rw [empty]
    exact Lists.nobody (by simp [outside])
  · simp [empty]
  · simp [empty]
  · have apart : (state.place thread).Apart := by simp [outside thread]
    exact apart.recorded (by simp [unlocked]) (by simp [outside thread])

/-- While nobody has the spinlock, a waiter is on the channel or has been woken. -/
theorem CvSound.on_channel (sound : CvSound state) (free : state.cvLock = none) {waiter : Thread}
    (waiting : (state.place waiter).Waiting) :
    waiter ∈ state.cvWchan ∨ state.woken waiter = true := by
  rcases waiting with released | asleep | resuming
  · exact absurd (Or.inr released) (sound.unlocked free waiter)
  · exact Or.inl ((sound.queue.members waiter).mpr asleep)
  · exact Or.inr ((sound.recorded waiter).resumed resuming)

/-- `wchan_wakeone` and `wchan_wakeall` on the condition variable's channel: the threads
that are woken, and those left. -/
def taken (kind : Kind) (queue : List Thread) : List Thread × List Thread :=
  match kind with
  | .signal => (queue.take 1, queue.drop 1)
  | .broadcast => (queue, [])

/-- The woken threads and those left make up the channel. -/
theorem taken_append (kind : Kind) (queue : List Thread) :
    (taken kind queue).1 ++ (taken kind queue).2 = queue := by
  cases kind with
  | signal => exact List.take_append_drop 1 queue
  | broadcast => exact List.append_nil queue

variable [DecidableEq Thread]

/-- One section of `lock_acquire`. -/
def attempt (state : State Cpu Thread) (thread : Thread) (cpu : Cpu) (caller : Caller) :
    State Cpu Thread :=
  match lockAcquire cpu thread state.lock with
  | .sleeps lock => {
      state with
      lock := lock
      place := update state.place thread (.locking caller .asleep)
      clock := state.clock + 1 }
  | .takes lock => {
      state with
      lock := lock
      place := update state.place thread .holding
      clock := state.clock + 1
      acquiredAt := update state.acquiredAt thread state.clock }

/-- A thread the lock's channel has lost to `thread_make_runnable`. -/
def Place.roused : Place → Place
  | .locking caller _ => .locking caller .woken
  | other => other

/-- The places after a release of the lock has woken a thread. -/
def rouse (place : Thread → Place) : Option Thread → Thread → Place
  | none => place
  | some thread => update place thread (place thread).roused

/-- The section of `lock_release`, by a thread that goes on to another place. -/
def releaseLock [DecidableEq Cpu] (state : State Cpu Thread) (thread : Thread) (cpu : Cpu)
    (onward : Place) : Option (State Cpu Thread) :=
  (lockRelease (some cpu) state.lock).map (fun result => {
    state with
    lock := result.2
    place := update (rouse state.place result.1) thread onward
    clock := state.clock + 1 })

/-- The section of a signaller that has the spinlock of the condition variable. -/
def wakeWaiters (state : State Cpu Thread) (thread : Thread) (kind : Kind) : State Cpu Thread :=
  { state with
    cvWchan := (taken kind state.cvWchan).2
    place := update
      (fun other => if other ∈ (taken kind state.cvWchan).1 then .waitWoken else state.place other)
      thread (.locking .signaller .running)
    clock := state.clock + 1
    woken := fun other => decide (other ∈ (taken kind state.cvWchan).1) || state.woken other }

/-- The transition function. -/
def next [DecidableEq Cpu] (state : State Cpu Thread) :
    Action Cpu Thread → Option (State Cpu Thread)
  | .acquire thread cpu =>
    if state.place thread = .outside then some (attempt state thread cpu .thread) else none
  | .retry thread cpu => (state.place thread).attempting.map (attempt state thread cpu)
  | .release thread cpu =>
    if state.place thread = .holding then releaseLock state thread cpu .outside else none
  | .wait thread cpu =>
    if state.place thread = .holding ∧ lockDoIHold (some cpu) state.lock = true ∧
        state.cvLock = none then
      some { state with
        cvLock := some thread
        place := update state.place thread .waitLocked
        clock := state.clock + 1 }
    else none
  | .waitRelease thread cpu =>
    if state.place thread = .waitLocked then
      (releaseLock state thread cpu .waitReleased).map (fun released => {
        released with
        cvCount := state.cvCount + 1
        releasedAt := update state.releasedAt thread state.clock
        woken := update state.woken thread false })
    else none
  | .waitSleep thread =>
    if state.place thread = .waitReleased then
      some { state with
        cvLock := none
        cvWchan := state.cvWchan ++ [thread]
        place := update state.place thread .waitAsleep
        clock := state.clock + 1 }
    else none
  | .waitResume thread =>
    if state.place thread = .waitWoken ∧ state.cvLock = none then
      some { state with
        cvCount := state.cvCount - 1
        place := update state.place thread (.locking .waiter .running)
        clock := state.clock + 1 }
    else none
  | .call thread cpu kind =>
    if state.place thread = .holding ∧ lockDoIHold (some cpu) state.lock = true then
      releaseLock state thread cpu (.waking kind)
    else none
  | .wakeup thread => (state.place thread).about.bind (fun kind =>
      if state.cvLock = none then some (wakeWaiters state thread kind) else none)

theorem attempting_cases {place : Place} {caller : Caller}
    (attempting : place.attempting = some caller) :
    ∃ phase, phase ≠ Phase.asleep ∧ place = .locking caller phase := by
  cases place with
  | locking other phase =>
    cases phase with
    | running => exact ⟨.running, by simp, by rw [Option.some.inj attempting]⟩
    | woken => exact ⟨.woken, by simp, by rw [Option.some.inj attempting]⟩
    | asleep => cases attempting
  | _ => cases attempting

theorem about_cases {place : Place} {kind : Kind} (about : place.about = some kind) :
    place = .waking kind := by
  cases place with
  | waking other => rw [Option.some.inj about]
  | _ => cases about

/-- A move of one thread between places that a property does not distinguish. -/
theorem update_alike {property : Place → Prop} (place : Thread → Place) (thread : Thread)
    (onward : Place) (alike : property (place thread) ↔ property onward) (other : Thread) :
    property (place other) ↔ property (update place thread onward other) := by
  by_cases same : other = thread
  · simpa [same] using alike
  · simp [same]

theorem LockSound.move (sound : LockSound lock place)
    (owner : (place thread).HasLock ↔ onward.HasLock) (awake : ¬ (place thread).LockAsleep)
    (stays : ¬ onward.LockAsleep) : LockSound lock (update place thread onward) :=
  sound.alike (update_alike place thread onward owner)
    (update_alike place thread onward (iff_of_false awake stays))

/-- What a woken thread was doing it still does; only its phase in `lock_acquire` has
changed. -/
theorem rouse_cases (place : Thread → Place) (woken : Option Thread) (thread : Thread) :
    rouse place woken thread = place thread ∨
      ∃ caller phase, place thread = .locking caller phase ∧
        rouse place woken thread = .locking caller .woken := by
  cases woken with
  | none => exact Or.inl rfl
  | some chosen =>
    obtain rfl | same := eq_or_ne thread chosen
    · cases here : place thread <;> simp [rouse, here, Place.roused]
    · simp [rouse, same]

/-- Waking a thread brings nobody to a place outside `lock_acquire`. -/
theorem rouse_eq_iff {place : Thread → Place} {woken : Option Thread} {thread : Thread}
    {here : Place} (elsewhere : ∀ caller phase, here ≠ .locking caller phase) :
    rouse place woken thread = here ↔ place thread = here := by
  rcases rouse_cases place woken thread with same | ⟨caller, phase, before, after⟩
  · rw [same]
  · rw [before, after]
    exact iff_of_false (fun now => elsewhere _ _ now.symm) (fun now => elsewhere _ _ now.symm)

/-- A release by the owner frees the lock and moves the oldest sleeper off its channel. -/
theorem LockSound.released [DecidableEq Cpu] {freed : Lock Cpu Thread}
    (sound : LockSound lock place) {woken : Option Thread} (owner : (place thread).HasLock)
    (release : lockRelease (some cpu) lock = some (woken, freed)) (gone : ¬ onward.HasLock)
    (stays : ¬ onward.LockAsleep) : LockSound freed (update (rouse place woken) thread onward) := by
  obtain ⟨_, count, _, channel⟩ := lock_release_returns release
  have awake : ¬ (rouse place woken thread).LockAsleep := by
    rcases rouse_cases place woken thread with same | ⟨caller, phase, before, after⟩
    · rw [same]
      rcases owner with holding | waiting
      · simp [holding]
      · simp [waiting]
    · simp [after]
  have queue : Lists freed.wchan (rouse place woken) Place.LockAsleep := by
    have before := sound.queue
    cases sleepers : lock.wchan with
    | nil =>
      rw [sleepers] at before channel
      obtain ⟨rfl, rest⟩ := Prod.mk.inj channel
      rw [rest]
      exact before
    | cons oldest others =>
      rw [sleepers] at before channel
      obtain ⟨rfl, rest⟩ := Prod.mk.inj channel
      rw [rest]
      obtain ⟨caller, asleep⟩ := (before.members oldest).mp List.mem_cons_self
      exact before.leave_head (by simp [asleep, Place.roused])
  refine ⟨Or.inl ?_, queue.unaffected (iff_of_false awake stays)⟩
  rcases sound.owned with ⟨_, nobody⟩ | ⟨taken, single, only⟩
  · exact absurd owner (nobody thread)
  refine ⟨by omega, ?_⟩
  intro other has
  by_cases self : other = thread
  · exact gone (by simpa [self] using has)
  · rw [update_of_ne self] at has
    rcases rouse_cases place woken other with same | ⟨caller, phase, _, after⟩
    · rw [same] at has
      exact self (((only other).mp has).trans ((only thread).mp owner).symm)
    · simp [after] at has

section

variable (state : State Cpu Thread) (thread : Thread)

/-- An attempt sleeps while the lock is taken, and takes it otherwise. -/
theorem LockSound.attempted (cpu : Cpu) (caller : Caller) (sound : LockSound state.lock state.place)
    (without : ¬ (state.place thread).HasLock) (awake : ¬ (state.place thread).LockAsleep) :
    LockSound (attempt state thread cpu caller).lock (attempt state thread cpu caller).place := by
  rcases lock_acquire_cases cpu thread state.lock with ⟨empty, sleeps⟩ | ⟨positive, takes⟩
  · simp only [attempt, sleeps]
    rcases sound.owned with ⟨free, _⟩ | ⟨taken, owner, only⟩
    · omega
    refine ⟨Or.inr ⟨rfl, owner, ?_⟩, sound.queue.join awake ⟨caller, rfl⟩⟩
    intro other
    have alike := update_alike state.place thread (.locking caller .asleep)
      (iff_of_false without (by simp [Place.HasLock])) other
    exact alike.symm.trans (only other)
  · simp only [attempt, takes]
    rcases sound.owned with ⟨free, nobody⟩ | ⟨taken, _⟩
    · refine ⟨Or.inr ⟨by simp [free], thread, ?_⟩,
        sound.queue.unaffected (iff_of_false awake (by simp))⟩
      intro other
      by_cases same : other = thread
      · simp [same]
      · simpa [same] using nobody other
    · omega

theorem locking_apart (caller : Caller) (phase : Phase) : (Place.locking caller phase).Apart := by
  simp

/-- A thread that a release of the lock wakes stays apart. -/
theorem rouse_moves {state : State Cpu Thread} (sound : CvSound state) (woken : Option Thread)
    (thread : Thread) : rouse state.place woken thread = state.place thread ∨
      (state.place thread).Apart ∧ (rouse state.place woken thread).Apart ∧
        ((rouse state.place woken thread).Resuming → state.woken thread = true) := by
  rcases rouse_cases state.place woken thread with same | ⟨caller, phase, before, after⟩
  · exact Or.inl same
  refine Or.inr ⟨before ▸ locking_apart caller phase, after ▸ locking_apart caller .woken, ?_⟩
  intro resuming
  apply (sound.recorded thread).resumed
  rw [after] at resuming
  rw [before]
  cases caller <;> simp at resuming ⊢

/-- A move of one thread between places that are apart. -/
theorem update_moves {state : State Cpu Thread} {thread : Thread}
    (before : (state.place thread).Apart) (after : onward.Apart)
    (recorded : onward.Resuming → state.woken thread = true) (other : Thread) :
    update state.place thread onward other = state.place other ∨
      (state.place other).Apart ∧ (update state.place thread onward other).Apart ∧
        ((update state.place thread onward other).Resuming → state.woken other = true) := by
  obtain rfl | same := eq_or_ne other thread
  · simp only [update_self]
    exact Or.inr ⟨before, after, recorded⟩
  · simp [same]

theorem attempt_sound (cpu : Cpu) (caller : Caller) (sound : Sound state)
    (without : ¬ (state.place thread).HasLock) (awake : ¬ (state.place thread).LockAsleep)
    (before : (state.place thread).Apart) (recorded : caller = .waiter → state.woken thread = true) :
    Sound (attempt state thread cpu caller) := by
  refine ⟨LockSound.attempted state thread cpu caller sound.lock without awake, ?_⟩
  rcases lock_acquire_cases cpu thread state.lock with ⟨_, sleeps⟩ | ⟨_, takes⟩
  · simp only [attempt, sleeps]
    refine sound.cv.apart rfl rfl rfl rfl (Nat.le_succ _)
      (update_moves before (locking_apart caller .asleep) ?_)
    rintro (woken | ⟨phase, resuming⟩)
    · cases woken
    · exact recorded (Place.locking.inj resuming).1
  · simp only [attempt, takes]
    refine sound.cv.apart rfl rfl rfl rfl (Nat.le_succ _) (update_moves before ?_ ?_)
    · simp
    · simp

theorem wait_sound (sound : Sound state) (holding : state.place thread = .holding)
    (free : state.cvLock = none) :
    Sound { state with
      cvLock := some thread
      place := update state.place thread .waitLocked
      clock := state.clock + 1 } := by
  refine ⟨sound.lock.move (by simp [holding]) (by simp [holding]) (by simp),
    sound.cv.queue.unaffected (by simp [holding]), sound.cv.ordered,
    fun other member => Nat.lt_succ_of_lt (sound.cv.past other member), fun other => ?_⟩
  obtain rfl | same := eq_or_ne other thread
  · constructor <;> simp
  · exact (sound.cv.recorded other).still (by simp [same]) (by simp [free, Ne.symm same])
      (fun _ => id) rfl (Nat.le_succ _) rfl

theorem wait_sleep_sound (sound : Sound state) (released : state.place thread = .waitReleased) :
    Sound { state with
      cvLock := none
      cvWchan := state.cvWchan ++ [thread]
      place := update state.place thread .waitAsleep
      clock := state.clock + 1 } := by
  have recorded := sound.cv.recorded thread
  obtain ⟨past, latest⟩ := recorded.latest released
  refine ⟨sound.lock.move (by simp [released]) (by simp [released]) (by simp),
    sound.cv.queue.join (by simp [released]) rfl, ?_, ?_, fun other => ?_⟩
  · refine List.pairwise_append.mpr ⟨sound.cv.ordered, List.pairwise_singleton _ _, ?_⟩
    intro earlier member last single
    rw [List.mem_singleton.mp single]
    exact latest earlier member
  · intro other member
    rcases List.mem_append.mp member with before | here
    · exact Nat.lt_succ_of_lt (sound.cv.past other before)
    · rw [List.mem_singleton.mp here]
      exact Nat.lt_succ_of_lt past
  · obtain rfl | same := eq_or_ne other thread
    · constructor <;> simp [recorded.unwoken (Or.inl released)]
    · have others := sound.cv.recorded other
      have elsewhere := sound.cv.alone (Or.inr released) other same
      constructor <;> simp only [update_of_ne same]
      · exact iff_of_false elsewhere nofun
      · exact fun waiting => absurd (Or.inr waiting) elsewhere
      · exact others.resumed
      · exact others.unwoken

/-- Where everybody is after a wakeup: the signaller is about to take the lock again, the
woken threads have left the channel, and nobody else has moved. -/
theorem wakeup_places {state : State Cpu Thread} (sound : Sound state) (thread : Thread)
    (kind : Kind) (other : Thread) :
    (other = thread ∧ (wakeWaiters state thread kind).place other = .locking .signaller .running) ∨
      (other ∈ (taken kind state.cvWchan).1 ∧ state.place other = .waitAsleep ∧
        (wakeWaiters state thread kind).place other = .waitWoken) ∨
      (other ∉ (taken kind state.cvWchan).1 ∧ other ≠ thread ∧
        (wakeWaiters state thread kind).place other = state.place other) := by
  by_cases self : other = thread
  · exact Or.inl ⟨self, by simp [wakeWaiters, self]⟩
  by_cases member : other ∈ (taken kind state.cvWchan).1
  · refine Or.inr (Or.inl ⟨member, (sound.cv.queue.members other).mp ?_, ?_⟩)
    · rw [← taken_append kind state.cvWchan]
      exact List.mem_append_left _ member
    · simp [wakeWaiters, self, member]
  · exact Or.inr (Or.inr ⟨member, self, by simp [wakeWaiters, self, member]⟩)

/-- A wake-up keeps the invariant: who wakes was counted as a waiter. -/
theorem wakeup_sound {kind : Kind} (sound : Sound state)
    (waking : state.place thread = .waking kind) (free : state.cvLock = none) :
    Sound (wakeWaiters state thread kind) := by
  have places := wakeup_places sound thread kind
  have distinct := sound.cv.queue.distinct
  have members := sound.cv.queue.members
  have ordered := sound.cv.ordered
  rw [← taken_append kind state.cvWchan] at distinct members ordered
  obtain ⟨_, restDistinct, disjoint⟩ := List.nodup_append.mp distinct
  have remains : ∀ other, other ∈ (taken kind state.cvWchan).2 → other ∈ state.cvWchan := by
    intro other member
    rw [← taken_append kind state.cvWchan]
    exact List.mem_append_right _ member
  have alike (other : Thread) : ((state.place other).HasLock ↔
        ((wakeWaiters state thread kind).place other).HasLock) ∧
      ((state.place other).LockAsleep ↔
        ((wakeWaiters state thread kind).place other).LockAsleep) := by
    rcases places other with ⟨rfl, now⟩ | ⟨_, before, now⟩ | ⟨_, _, now⟩
    · simp [waking, now]
    · simp [before, now]
    · simp only [now, and_self]
  refine ⟨sound.lock.alike (fun other => (alike other).1) (fun other => (alike other).2),
    ⟨?_, restDistinct⟩, (List.pairwise_append.mp ordered).2.1,
    fun other member => Nat.lt_succ_of_lt (sound.cv.past other (remains other member)), ?_⟩
  · intro other
    have listed := members other
    rw [List.mem_append] at listed
    rcases places other with ⟨rfl, now⟩ | ⟨member, before, now⟩ | ⟨absent, _, now⟩
    · rw [now]
      refine iff_of_false ?_ (by simp)
      intro remaining
      have asleep := listed.mp (Or.inr remaining)
      simp [waking] at asleep
    · rw [now]
      refine iff_of_false ?_ (by simp)
      intro remaining
      exact disjoint other member other remaining rfl
    · rw [now]
      simpa [absent, wakeWaiters] using listed
  · intro other
    have unlocked : (wakeWaiters state thread kind).cvLock ≠ some other := by
      simp [wakeWaiters, free]
    rcases places other with ⟨_, now⟩ | ⟨member, _, now⟩ | ⟨absent, _, now⟩
    · exact Place.Apart.recorded (by simp [now]) unlocked (by simp [now])
    · exact Place.Apart.recorded (by simp [now]) unlocked (by simp [wakeWaiters, member])
    · exact (sound.cv.recorded other).still now Iff.rfl remains rfl (Nat.le_succ _)
        (by simp [wakeWaiters, absent])

/-- Being woken by a release of the lock takes nobody out of `cv_wait`. -/
theorem in_wait_rouse (place : Thread → Place) (woken : Option Thread) (thread : Thread)
    (inside : (place thread).InWait) : (rouse place woken thread).InWait := by
  rcases rouse_cases place woken thread with same | ⟨caller, phase, before, after⟩
  · exact same ▸ inside
  · rw [before] at inside
    rw [after]
    cases caller <;> simp at inside ⊢

theorem attempt_place (cpu : Cpu) (caller : Caller) : (attempt state thread cpu caller).place =
        update state.place thread (.locking caller .asleep) ∨
      (attempt state thread cpu caller).place = update state.place thread .holding := by
  rcases lock_acquire_cases cpu thread state.lock with ⟨_, sleeps⟩ | ⟨_, takes⟩
  · exact Or.inl (by simp only [attempt, sleeps])
  · exact Or.inr (by simp only [attempt, takes])

end

variable [DecidableEq Cpu]

/-- A release by a thread that goes on to a place apart from the condition variable. -/
theorem release_sound (sound : Sound state) (holding : state.place thread = .holding)
    (released : releaseLock state thread cpu onward = some after) (gone : ¬ onward.HasLock)
    (stays : ¬ onward.LockAsleep) (apart : onward.Apart) (idle : ¬ onward.Resuming) :
    Sound after := by
  simp only [releaseLock, Option.map_eq_some_iff] at released
  obtain ⟨⟨woken, lock⟩, release, rfl⟩ := released
  refine ⟨sound.lock.released (by simp [holding]) release gone stays,
    sound.cv.apart rfl rfl rfl rfl (Nat.le_succ _) ?_⟩
  intro other
  obtain rfl | same := eq_or_ne other thread
  · simp only [update_self]
    refine Or.inr ⟨?_, apart, fun resuming => absurd resuming idle⟩
    simp [holding]
  · simpa only [update_of_ne same] using rouse_moves sound.cv woken other

theorem wait_release_sound {released : State Cpu Thread} (sound : Sound state)
    (locked : state.place thread = .waitLocked)
    (release : releaseLock state thread cpu .waitReleased = some released) :
    Sound { released with
      cvCount := state.cvCount + 1
      releasedAt := update state.releasedAt thread state.clock
      woken := update state.woken thread false } := by
  simp only [releaseLock, Option.map_eq_some_iff] at release
  obtain ⟨⟨woken, lock⟩, release, rfl⟩ := release
  have absent : ∀ other, other ∈ state.cvWchan → other ≠ thread := by
    rintro other member rfl
    have asleep := (sound.cv.queue.members other).mp member
    simp [locked] at asleep
  have kept : ∀ other, other ∈ state.cvWchan →
      update state.releasedAt thread state.clock other = state.releasedAt other :=
    fun other member => update_of_ne (absent other member) _ _
  refine ⟨sound.lock.released (by simp [locked]) release (by simp [Place.HasLock]) (by simp),
    ⟨?_, sound.cv.queue.distinct⟩, ?_, ?_, fun other => ?_⟩
  · intro other
    rw [sound.cv.queue.members other]
    by_cases same : other = thread
    · simp [same, locked]
    · simp only [update_of_ne same]
      exact (rouse_eq_iff (by simp)).symm
  · refine sound.cv.ordered.imp_of_mem ?_
    intro first second firstMember secondMember earlier
    simpa only [kept first firstMember, kept second secondMember] using earlier
  · intro other member
    simp only [kept other member]
    exact Nat.lt_succ_of_lt (sound.cv.past other member)
  · have others := sound.cv.recorded other
    obtain rfl | same := eq_or_ne other thread
    · refine ⟨?_, fun _ => ⟨by simp, fun earlier member => ?_⟩, by simp, by simp⟩
      · simpa [locked] using others.guarded
      · simp only [kept earlier member, update_self]
        exact sound.cv.past earlier member
    · constructor <;> simp only [update_of_ne same]
      · rw [← others.guarded]
        exact or_congr (rouse_eq_iff (by simp)) (rouse_eq_iff (by simp))
      · rw [rouse_eq_iff (by simp)]
        exact fun waiting => absurd (Or.inr waiting) (sound.cv.alone (Or.inl locked) other same)
      · intro resuming
        rcases rouse_moves sound.cv woken other with unmoved | ⟨_, _, resumed⟩
        · exact others.resumed (unmoved ▸ resuming)
        · exact resumed resuming
      · rw [rouse_eq_iff (by simp), rouse_eq_iff (by simp)]
        exact others.unwoken

/-- Every step keeps the invariant. One case per action. -/
theorem next_sound {action : Action Cpu Thread} (sound : Sound state)
    (taken : next state action = some after) : Sound after := by
  cases action with
    simp only [next, Option.some.injEq, Option.map_eq_some_iff, Option.ite_none_right_eq_some,
      Option.bind_eq_some_iff] at taken
  | acquire thread cpu =>
    obtain ⟨outside, rfl⟩ := taken
    refine attempt_sound state thread cpu .thread sound ?_ ?_ ?_ (by simp)
    · simp [outside]
    · simp [outside]
    · simp [outside]
  | retry thread cpu =>
    obtain ⟨caller, attempting, rfl⟩ := taken
    obtain ⟨phase, awake, here⟩ := attempting_cases attempting
    refine attempt_sound state thread cpu caller sound ?_ ?_ ?_ ?_
    · simp [here]
    · simp [here, awake]
    · exact here ▸ locking_apart caller phase
    · rintro rfl
      exact (sound.cv.recorded thread).resumed (Or.inr ⟨phase, here⟩)
  | release thread cpu =>
    obtain ⟨holding, released⟩ := taken
    exact release_sound sound holding released (by simp [Place.HasLock]) (by simp) (by simp)
      (by simp)
  | wait thread cpu =>
    obtain ⟨⟨holding, _, free⟩, rfl⟩ := taken
    exact wait_sound state thread sound holding free
  | waitRelease thread cpu =>
    obtain ⟨locked, released, release, rfl⟩ := taken
    exact wait_release_sound sound locked release
  | waitSleep thread =>
    obtain ⟨released, rfl⟩ := taken
    exact wait_sleep_sound state thread sound released
  | waitResume thread =>
    obtain ⟨⟨woken, _⟩, rfl⟩ := taken
    refine ⟨sound.lock.move (by simp [woken]) (by simp [woken])
      (by simp), sound.cv.apart rfl rfl rfl rfl (Nat.le_succ _)
        (update_moves ?_ (locking_apart .waiter .running) ?_)⟩
    · simp [woken]
    · intro _
      exact (sound.cv.recorded thread).resumed (Or.inl woken)
  | call thread cpu kind =>
    obtain ⟨⟨holding, _⟩, released⟩ := taken
    exact release_sound sound holding released (by simp [Place.HasLock]) (by simp) (by simp)
      (by simp)
  | wakeup thread =>
    obtain ⟨kind, about, free, rfl⟩ := taken
    exact wakeup_sound state thread sound (about_cases about) free

theorem release_place {released : State Cpu Thread}
    (release : releaseLock state thread cpu onward = some released) :
    ∃ woken, released.place = update (rouse state.place woken) thread onward := by
  simp only [releaseLock, Option.map_eq_some_iff] at release
  obtain ⟨⟨woken, lock⟩, _, rfl⟩ := release
  exact ⟨woken, rfl⟩

/-- The only way out of `cv_wait` is a thread that has been woken and takes the lock. -/
theorem wait_returns {action : Action Cpu Thread} (sound : Sound state)
    (taken : next state action = some after) (inside : (state.place thread).InWait)
    (left : ¬ (after.place thread).InWait) :
    state.woken thread = true ∧ after.place thread = .holding := by
  have moved : ∀ actor place, after.place = update state.place actor place →
      thread = actor ∧ after.place thread = place := by
    intro actor place places
    by_cases same : thread = actor
    · exact ⟨same, by rw [places, same, update_self]⟩
    · rw [places, update_of_ne same] at left
      exact absurd inside left
  have releasing : ∀ actor cpu onward (released : State Cpu Thread),
      releaseLock state actor cpu onward = some released → after.place = released.place →
      thread = actor ∧ after.place thread = onward := by
    intro actor cpu onward released release places
    obtain ⟨woken, now⟩ := release_place release
    rw [now] at places
    by_cases same : thread = actor
    · exact ⟨same, by rw [places, same, update_self]⟩
    · rw [places, update_of_ne same] at left
      exact absurd (in_wait_rouse state.place woken thread inside) left
  cases action with
    simp only [next, Option.some.injEq, Option.map_eq_some_iff, Option.ite_none_right_eq_some,
      Option.bind_eq_some_iff] at taken
  | acquire actor cpu =>
    obtain ⟨outside, rfl⟩ := taken
    have actor_moved : thread = actor := by
      rcases attempt_place state actor cpu .thread with places | places
      · exact (moved actor _ places).1
      · exact (moved actor _ places).1
    simp [actor_moved, outside] at inside
  | retry actor cpu =>
    obtain ⟨caller, attempting, rfl⟩ := taken
    obtain ⟨phase, awake, here⟩ := attempting_cases attempting
    rcases attempt_place state actor cpu caller with places | places
    · obtain ⟨rfl, now⟩ := moved actor _ places
      rw [now] at left
      rw [here] at inside
      cases caller <;> simp at inside left
    · obtain ⟨rfl, now⟩ := moved actor _ places
      refine ⟨(sound.cv.recorded thread).resumed ?_, now⟩
      rw [here] at inside ⊢
      cases caller <;> simp at inside ⊢
  | release actor cpu =>
    obtain ⟨rfl, _⟩ := releasing actor cpu .outside after taken.2 rfl
    simp [taken.1] at inside
  | wait actor cpu | waitSleep actor | waitResume actor =>
    obtain ⟨_, rfl⟩ := taken
    obtain ⟨_, now⟩ := moved actor _ rfl
    rw [now] at left
    simp at left
  | waitRelease actor cpu =>
    obtain ⟨_, released, release, rfl⟩ := taken
    obtain ⟨_, now⟩ := releasing actor cpu .waitReleased released release rfl
    rw [now] at left
    simp at left
  | call actor cpu kind =>
    obtain ⟨rfl, _⟩ := releasing actor cpu (.waking kind) after taken.2 rfl
    simp [taken.1.1] at inside
  | wakeup actor =>
    obtain ⟨kind, about, _, rfl⟩ := taken
    rcases wakeup_places sound actor kind thread with ⟨rfl, _⟩ | ⟨_, _, now⟩ | ⟨_, _, now⟩
    · simp [about_cases about] at inside
    · simp [now] at left
    · exact absurd (now ▸ inside) left

/-- In every state some interleaving arrives at: when a signaller's wakeup step happens,
every thread that released the lock inside `cv_wait` before the signaller acquired it is on
the wait channel or has been woken already. A signal wakes one of those that have not, if
there are any, and a broadcast leaves none of them unwoken. A step that takes a thread out
of `cv_wait` is that of a woken thread, and it has the lock, alone. -/
theorem no_wakeup_lost (state : State Cpu Thread) (reached : Reaches next Anything Initial state) :
    (∀ signaller kind after, state.place signaller = .waking kind →
      next state (.wakeup signaller) = some after →
      (∀ waiter, Earlier state waiter signaller →
        waiter ∈ state.cvWchan ∨ state.woken waiter = true) ∧
      (kind = .signal → (∃ waiter, Earlier state waiter signaller ∧ state.woken waiter = false) →
        ∃ waiter, Earlier state waiter signaller ∧ state.woken waiter = false ∧
          after.woken waiter = true) ∧
      (kind = .broadcast → ∀ waiter, Earlier state waiter signaller → after.woken waiter = true)) ∧
    (∀ thread action after, next state action = some after → (state.place thread).InWait →
      ¬ (after.place thread).InWait →
      state.woken thread = true ∧ after.place thread = .holding ∧ after.lock.count = 0 ∧
        ∀ other, (after.place other).HasLock → other = thread) := by
  have sound : Sound state := reached.invariant initial_sound
    (fun state action after sound _ taken => next_sound sound taken)
  constructor
  · intro signaller kind after waking taken
    simp only [next, waking, Place.about, Option.bind_some, guard_some] at taken
    obtain ⟨free, rfl⟩ := taken
    refine ⟨fun waiter earlier => sound.cv.on_channel free earlier.1, ?_, ?_⟩
    · rintro rfl ⟨waiter, ⟨waiting, before⟩, unwoken⟩
      have member : waiter ∈ state.cvWchan := by
        rcases sound.cv.on_channel free waiting with member | woken
        · exact member
        · simp [unwoken] at woken
      cases queue : state.cvWchan with
      | nil => simp [queue] at member
      | cons oldest rest =>
        have asleep : state.place oldest = .waitAsleep :=
          (sound.cv.queue.members oldest).mp (by simp [queue])
        refine ⟨oldest, ⟨Or.inr (Or.inl asleep), ?_⟩,
          (sound.cv.recorded oldest).unwoken (Or.inr asleep), ?_⟩
        · have ordered := sound.cv.ordered
          rw [queue] at member ordered
          rcases List.mem_cons.mp member with rfl | later
          · exact before
          · exact Nat.lt_trans ((List.pairwise_cons.mp ordered).1 waiter later) before
        · simp [wakeWaiters, taken, queue]
    · rintro rfl waiter ⟨waiting, _⟩
      rcases sound.cv.on_channel free waiting with member | woken
      · simp [wakeWaiters, taken, member]
      · simp [wakeWaiters, woken]
  · intro thread action after taken inside left
    obtain ⟨woken, holding⟩ := wait_returns sound taken inside left
    have has : (after.place thread).HasLock := Or.inl holding
    have afterwards := next_sound sound taken
    rcases afterwards.lock.owned with ⟨_, nobody⟩ | ⟨count, owner, only⟩
    · exact absurd has (nobody thread)
    · exact ⟨woken, holding, count, fun other alsoHas =>
        ((only other).mp alsoHas).trans ((only thread).mp has).symm⟩

/-- Two threads and one CPU before either has called anything. -/
def twoThreads : State Unit Bool where
  lock := lockCreate
  cvLock := none
  cvCount := 0
  cvWchan := []
  place := fun _ => .outside
  clock := 0
  acquiredAt := fun _ => 0
  releasedAt := fun _ => 0
  woken := fun _ => false

/-- One thread waits, and the other acquires the lock and calls `cv_signal`. -/
def untilWakeup : List (Action Unit Bool) :=
  [.acquire false (), .wait false (), .waitRelease false (), .waitSleep false,
    .acquire true (), .call true () .signal]

/-- The wakeup step of that call wakes a thread that waited before. -/
theorem no_wakeup_lost_of_two :
    ∃ state after waiter, exec next twoThreads untilWakeup = some state ∧
      next state (.wakeup true) = some after ∧ Earlier state waiter true ∧
      state.woken waiter = false ∧ after.woken waiter = true := by
  obtain ⟨state, evaluated, waking, free, asleep, before, unwoken⟩ : ∃ state ∈ exec next twoThreads
      untilWakeup, state.place true = .waking .signal ∧ state.cvLock = none ∧ state.place false =
      .waitAsleep ∧ state.releasedAt false < state.acquiredAt true ∧ state.woken false = false := by
    decide +kernel
  have reached := reaches_of_exec Initial untilWakeup ⟨rfl, rfl, rfl, fun _ => rfl⟩ evaluated
  have step : next state (.wakeup true) = some (wakeWaiters state true .signal) := by
    simp [next, waking, Place.about, free]
  obtain ⟨_, signalled, _⟩ := (no_wakeup_lost state reached).1 true .signal _ waking step
  obtain ⟨waiter, earlier, notYet, woken⟩ :=
    signalled rfl ⟨false, ⟨Or.inr (Or.inl asleep), before⟩, unwoken⟩
  exact ⟨state, _, waiter, evaluated, step, earlier, notYet, woken⟩

end Os161.Synch.Cv
