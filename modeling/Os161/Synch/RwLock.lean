import Os161.Synch.Semaphore

/-!
# One reader-writer lock under every interleaving

Any number of threads acquire and release one reader-writer lock, for reading and for
writing. A step is one spinlock section, run on whatever CPU the thread is on. Readers and
writers sleep on the same wait channel, each for a condition of its own, and every release
wakes the whole channel.

Each reader inside has a slot in an array of a thousand, with the CPU it ran on, and a
release looks for a slot with the CPU it runs on. The two ways this can go wrong are not
steps here: a release that finds no such slot (or, for a writer, another CPU recorded)
stops at its assertion, and a reader that finds no free slot walks off the array.

A thread may acquire the lock again while it is inside; the source does not check for
that. `writer_waiting`, an `int`, has no bound here: it is the number of writers that wait
(`Counted.waiting`), and there is no memory for the stacks of 2 ^ 31 threads.
-/
namespace Os161.Synch.RwLock

open Os161.Library.Runs Os161.Library.Places Os161.Synch.Semaphore Function

variable {Cpu Thread : Type}

/-- `READ` and `WRITE`. -/
inductive Mode
  | read
  | write
  deriving DecidableEq

/-- The number of slots for readers. -/
abbrev readerSlots : Nat := 1000

/-- `struct rwlock`, without its name. -/
structure Rwlock (Cpu Thread : Type) where
  readerCount : UInt32
  readerHolders : List (Option Cpu)
  writerHolder : Option Cpu
  writerIn : Bool
  writerWaiting : Int
  wchan : List Thread

/-- `rwlock_create`, once its allocations have succeeded. Its `memset` clears more than
the slots; what lies behind them is not modelled. -/
def rwlockCreate : Rwlock Cpu Thread where
  readerCount := 0
  readerHolders := List.replicate readerSlots none
  writerHolder := none
  writerIn := false
  writerWaiting := 0
  wchan := []

/-- The condition of the loop in `rwlock_acquire`: a caller that finds it true sleeps. -/
def Rwlock.Blocks (lock : Rwlock Cpu Thread) : Mode → Prop
  | .read => lock.writerIn = true ∨ (lock.writerWaiting ≠ 0 ∧ lock.readerCount ≠ 0)
  | .write => lock.readerCount ≠ 0 ∨ lock.writerIn = true

instance (lock : Rwlock Cpu Thread) (mode : Mode) : Decidable (lock.Blocks mode) :=
  match mode with
  | .read | .write => inferInstanceAs (Decidable (_ ∨ _))

/-- A caller announces itself before it first looks at the condition: a writer counts
itself as waiting. -/
def Rwlock.announce (lock : Rwlock Cpu Thread) : Mode → Rwlock Cpu Thread
  | .read => lock
  | .write => { lock with writerWaiting := lock.writerWaiting + 1 }

/-- What a caller does that need not sleep. A reader without a free slot leaves the
array. -/
def Rwlock.enter (lock : Rwlock Cpu Thread) (cpu : Cpu) : Mode → Option (Rwlock Cpu Thread)
  | .read => (lock.readerHolders.findIdx? (fun holder => holder.isNone)).map (fun slot =>
      { lock with
        readerCount := lock.readerCount + 1
        readerHolders := lock.readerHolders.set slot (some cpu) })
  | .write => some { lock with
      writerIn := true
      writerWaiting := lock.writerWaiting - 1
      writerHolder := some cpu }

/-- The part of `rwlock_release` before the channel is woken. -/
def Rwlock.leave [DecidableEq Cpu] (lock : Rwlock Cpu Thread) (cpu : Cpu) :
    Mode → Option (Rwlock Cpu Thread)
  | .read => (lock.readerHolders.findIdx? (fun holder => decide (holder = some cpu))).map
      (fun slot => { lock with
        readerHolders := lock.readerHolders.set slot none
        readerCount := lock.readerCount - 1 })
  | .write => if lock.writerHolder = some cpu then
      some { lock with writerHolder := none, writerIn := false }
    else none

/-- Where a thread is with respect to the lock's channel, and what it waits for. -/
inductive Phase
  | running
  | asleep (mode : Mode)
  | woken (mode : Mode)
  deriving DecidableEq

/-- `thread_make_runnable` on a thread taken off the channel. -/
def Phase.roused : Phase → Phase
  | .asleep mode => .woken mode
  | other => other

/-- A writer inside the loop of `rwlock_acquire`. -/
def Phase.WaitsToWrite (phase : Phase) : Prop := phase = .asleep .write ∨ phase = .woken .write

/-- A thread on the channel. -/
def Phase.Asleep (phase : Phase) : Prop := ∃ mode, phase = .asleep mode

attribute [local simp] Phase.WaitsToWrite rwlockCreate Phase.Asleep

/-- The lock, the phase of each thread, and one entry for each completed acquire that has
not been released. -/
structure State (Cpu Thread : Type) where
  lock : Rwlock Cpu Thread
  phase : Thread → Phase
  readers : List Thread
  writers : List Thread

/-- The spinlock sections a thread can run. -/
inductive Action (Cpu Thread : Type)
  | acquire (thread : Thread) (cpu : Cpu) (mode : Mode)
  | retry (thread : Thread) (cpu : Cpu) (mode : Mode)
  | release (thread : Thread) (cpu : Cpu) (mode : Mode)

/-- A lock that has just been created and that no thread has touched. -/
def Initial (state : State Cpu Thread) : Prop :=
  state.lock = rwlockCreate ∧ (∀ thread, state.phase thread = .running) ∧
    state.readers = [] ∧ state.writers = []

/-- The writer inside is alone, the counters and the slots say how many threads there
are, and the channel has the sleepers. -/
structure Counted (state : State Cpu Thread) : Prop where
  alone : (state.lock.writerIn = false ∧ state.writers = []) ∨
    (state.lock.writerIn = true ∧ state.readers = [] ∧ ∃ writer, state.writers = [writer])
  counted : state.lock.readerCount.toNat = state.readers.length
  slots : state.lock.readerHolders.length = readerSlots
  occupied : state.lock.readerHolders.countP Option.isSome = state.readers.length
  waiting : ∃ writers, Lists writers state.phase Phase.WaitsToWrite ∧
    state.lock.writerWaiting = writers.length
  queued : Lists state.lock.wchan state.phase Phase.Asleep

/-- What every section keeps: that, and whoever is on the channel is blocked. -/
structure Sound (state : State Cpu Thread) : Prop extends Counted state where
  blocked : ∀ thread mode, state.phase thread = .asleep mode → state.lock.Blocks mode

theorem initial_sound (state : State Cpu Thread) (initial : Initial state) : Sound state := by
  obtain ⟨created, running, noReaders, noWriters⟩ := initial
  refine ⟨⟨Or.inl ⟨by simp [created], noWriters⟩, ?_, ?_, ?_, ⟨[], ?_, ?_⟩, ?_⟩, ?_⟩
  · simp [created, noReaders]
  · simp [created]
  · simp [created, noReaders]
  · exact Lists.nobody (by simp [running])
  · simp [created]
  · rw [created]
    exact Lists.nobody (by simp [running])
  · intro thread mode asleep
    simp [running thread] at asleep

/-- A free slot that is filled counts one more, a filled slot that is cleared one fewer. -/
theorem occupied_set {holders : List (Option Cpu)} {slot : Nat} (new : Option Cpu)
    (inside : slot < holders.length) (changed : holders[slot].isSome ≠ new.isSome) :
    (new.isSome = true →
      (holders.set slot new).countP Option.isSome = holders.countP Option.isSome + 1) ∧
    (new.isSome = false →
      (holders.set slot new).countP Option.isSome + 1 = holders.countP Option.isSome) := by
  rw [List.countP_set inside]
  constructor
  · intro filled
    have free : holders[slot].isSome = false := by simpa [filled] using changed
    simp [filled, free]
  · intro cleared
    have filled : holders[slot].isSome = true := by
      rw [cleared] at changed
      exact eq_true_of_ne_false changed
    have some : 0 < holders.countP Option.isSome :=
      List.countP_pos_iff.mpr ⟨holders[slot], List.getElem_mem inside, filled⟩
    simp only [cleared, filled, if_true, Bool.false_eq_true, if_false]
    omega

variable {thread : Thread} {state : State Cpu Thread} {lock : Rwlock Cpu Thread} {cpu : Cpu}

/-- No slot is free exactly when there are as many readers as slots. -/
theorem Counted.full_iff (counted : Counted state) :
    state.lock.readerHolders.findIdx? (fun holder => holder.isNone) = none ↔
      state.readers.length = readerSlots := by
  rw [← counted.occupied, ← counted.slots]
  simp [Option.isSome_iff_ne_none]

variable [DecidableEq Thread]

section

variable (state : State Cpu Thread)

/-- One pass through the loop of `rwlock_acquire`. -/
def attempt (thread : Thread) (cpu : Cpu) (mode : Mode) : Option (State Cpu Thread) :=
  if state.lock.Blocks mode then
    some { state with
      lock := { state.lock with wchan := state.lock.wchan ++ [thread] }
      phase := update state.phase thread (.asleep mode) }
  else
    (state.lock.enter cpu mode).map (fun lock => {
      lock := lock
      phase := update state.phase thread .running
      readers := if mode = .read then state.readers ++ [thread] else state.readers
      writers := if mode = .write then state.writers ++ [thread] else state.writers })

/-- `wchan_wakeall`. -/
def wakeall : State Cpu Thread :=
  { state with
    lock := { state.lock with wchan := [] }
    phase := fun thread =>
      if thread ∈ state.lock.wchan then (state.phase thread).roused else state.phase thread }

/-- The acquires a release can be for. -/
def State.inside : Mode → List Thread
  | .read => state.readers
  | .write => state.writers

/-- The transition function. Threads release what they have acquired. -/
def next [DecidableEq Cpu] (state : State Cpu Thread) :
    Action Cpu Thread → Option (State Cpu Thread)
  | .acquire thread cpu mode =>
    if state.phase thread = .running then
      attempt { state with lock := state.lock.announce mode } thread cpu mode
    else none
  | .retry thread cpu mode =>
    if state.phase thread = .woken mode then attempt state thread cpu mode else none
  | .release thread cpu mode =>
    if state.phase thread = .running ∧ thread ∈ state.inside mode then
      (state.lock.leave cpu mode).map (fun lock => wakeall {
        state with
        lock := lock
        readers := if mode = .read then state.readers.erase thread else state.readers
        writers := if mode = .write then state.writers.erase thread else state.writers })
    else none

/-- The state of an acquire that has announced itself and is about to look at the
condition, like a thread that has been woken. -/
def announced (thread : Thread) (mode : Mode) : State Cpu Thread :=
  { state with
    lock := state.lock.announce mode
    phase := update state.phase thread (.woken mode) }

theorem announced_sound (mode : Mode) (sound : Sound state)
    (running : state.phase thread = .running) : Sound (announced state thread mode) := by
  obtain ⟨writers, listed, waiting⟩ := sound.waiting
  have queued : Lists state.lock.wchan (update state.phase thread (.woken mode))
      Phase.Asleep := sound.queued.unaffected (by simp [running])
  have asleepBefore : ∀ other sleeping, update state.phase thread (.woken mode) other =
      .asleep sleeping → state.phase other = .asleep sleeping := by
    intro other sleeping asleep
    by_cases same : other = thread
    · simp [same] at asleep
    · simpa [same] using asleep
  cases mode with
  | read =>
    refine ⟨{ sound with waiting := ⟨writers, ?_, waiting⟩, queued := queued }, ?_⟩
    · exact listed.unaffected (by simp [running])
    · intro other sleeping asleep
      exact sound.blocked other sleeping (asleepBefore other sleeping asleep)
  | write =>
    refine ⟨{ sound with waiting := ⟨writers ++ [thread], ?_, ?_⟩, queued := queued }, ?_⟩
    · exact listed.join (by simp [running]) (by simp)
    · simp [announced, Rwlock.announce, waiting]
    · intro other sleeping asleep
      have before := sound.blocked other sleeping (asleepBefore other sleeping asleep)
      cases sleeping with
      | read =>
        rcases before with inside | ⟨_, occupied⟩
        · exact Or.inl inside
        · refine Or.inr ⟨?_, occupied⟩
          simp only [announced, Rwlock.announce, waiting]
          omega
      | write => exact before

/-- The first attempt of an acquire is the attempt of the announced state. -/
theorem attempt_announced (thread : Thread) (cpu : Cpu) (mode : Mode) :
    attempt { state with lock := state.lock.announce mode } thread cpu mode =
      attempt (announced state thread mode) thread cpu mode := by
  simp [attempt, announced]

theorem sleep_sound {mode : Mode} (sound : Sound state) (due : state.phase thread = .woken mode)
    (blocks : state.lock.Blocks mode) :
    Sound { state with
      lock := { state.lock with wchan := state.lock.wchan ++ [thread] }
      phase := update state.phase thread (.asleep mode) } := by
  obtain ⟨writers, listed, waiting⟩ := sound.waiting
  refine ⟨{ sound with waiting := ⟨writers, ?_, waiting⟩, queued := ?_ }, ?_⟩
  · exact listed.unaffected (by simp [due])
  · exact sound.queued.join (by simp [due]) ⟨mode, rfl⟩
  · intro other sleeping asleep
    by_cases same : other = thread
    · have modes : mode = sleeping := by simpa [same] using asleep
      cases sleeping <;> exact modes ▸ blocks
    · have before := sound.blocked other sleeping (by simpa [same] using asleep)
      cases sleeping <;> exact before

/-- A reader comes in. No other reader can be asleep then, and sleeping writers now have a
reader to wait for. -/
theorem enter_read_sound (sound : Sound state) (due : state.phase thread = .woken .read)
    (admitted : ¬ state.lock.Blocks .read) (entered : state.lock.enter cpu .read = some lock) :
    Sound { state with
      lock := lock
      phase := update state.phase thread .running
      readers := state.readers ++ [thread] } := by
  obtain ⟨writers, listed, waiting⟩ := sound.waiting
  simp only [Rwlock.enter, Option.map_eq_some_iff] at entered
  obtain ⟨slot, found, rfl⟩ := entered
  obtain ⟨inside, free, _⟩ := List.findIdx?_eq_some_iff_getElem.mp found
  have room : state.readers.length < readerSlots := by
    have few : state.readers.length ≤ readerSlots := by
      rw [← sound.occupied, ← sound.slots]
      exact List.countP_le_length
    have notFull := (sound.toCounted.full_iff).not.mp (by simp [found])
    omega
  have up : (state.lock.readerCount + 1).toNat = state.readers.length + 1 := by
    rw [UInt32.toNat_add, UInt32.toNat_one, sound.counted]
    unfold readerSlots at room
    omega
  have writerOut : state.lock.writerIn = false := by
    simpa using fun inside => admitted (Or.inl inside)
  refine ⟨⟨?_, ?_, ?_, ?_, ⟨writers, ?_, waiting⟩, ?_⟩, ?_⟩
  · rcases sound.alone with out | ⟨inside, _⟩
    · exact Or.inl out
    · simp [writerOut] at inside
  · simpa using up
  · simpa using sound.slots
  · have filled := (occupied_set (some cpu) inside (by
      simpa using free)).1 rfl
    simpa [sound.occupied] using filled
  · exact listed.unaffected (by simp [due])
  · exact sound.queued.unaffected (by simp [due])
  · intro other sleeping asleep
    have before : state.phase other = .asleep sleeping := by
      by_cases same : other = thread
      · simp [same] at asleep
      · simpa [same] using asleep
    cases sleeping with
    | read => exact absurd (sound.blocked other .read before) admitted
    | write =>
      refine Or.inl ?_
      intro zero
      have none : (state.lock.readerCount + 1).toNat = 0 := congrArg UInt32.toNat zero
      omega

/-- A writer comes in, and everybody has a writer to wait for. -/
theorem enter_write_sound (cpu : Cpu) (sound : Sound state)
    (due : state.phase thread = .woken .write) (admitted : ¬ state.lock.Blocks .write) :
    Sound { state with
      lock := { state.lock with
        writerIn := true
        writerWaiting := state.lock.writerWaiting - 1
        writerHolder := some cpu }
      phase := update state.phase thread .running
      writers := state.writers ++ [thread] } := by
  obtain ⟨writers, listed, waiting⟩ := sound.waiting
  simp only [Rwlock.Blocks, not_or, not_not, Bool.not_eq_true] at admitted
  obtain ⟨noCount, writerOut⟩ := admitted
  have noReaders : state.readers = [] := by
    apply List.eq_nil_of_length_eq_zero
    rw [← sound.counted, noCount]
    rfl
  have noWriters : state.writers = [] := by
    rcases sound.alone with ⟨_, none⟩ | ⟨inside, _⟩
    · exact none
    · simp [writerOut] at inside
  have member : thread ∈ writers := (listed.members thread).mpr (Or.inr due)
  have positive : 0 < writers.length := List.length_pos_of_mem member
  refine ⟨⟨Or.inr ⟨rfl, noReaders, thread, by simp [noWriters]⟩, sound.counted, sound.slots,
    sound.occupied, ⟨writers.erase thread, ?_, ?_⟩, ?_⟩, ?_⟩
  · exact listed.leave thread (by simp)
  · rw [List.length_erase_of_mem member]
    simp only [waiting]
    omega
  · exact sound.queued.unaffected (by simp [due])
  · intro other sleeping _
    cases sleeping with
    | read => exact Or.inl rfl
    | write => exact Or.inr rfl

theorem attempt_sound {after : State Cpu Thread} {mode : Mode} (sound : Sound state)
    (due : state.phase thread = .woken mode) (taken : attempt state thread cpu mode = some after) :
    Sound after := by
  by_cases blocks : state.lock.Blocks mode
  · simp only [attempt, if_pos blocks, Option.some.injEq] at taken
    subst taken
    exact sleep_sound state sound due blocks
  simp only [attempt, if_neg blocks, Option.map_eq_some_iff] at taken
  obtain ⟨lock, entered, rfl⟩ := taken
  cases mode with
  | read => exact enter_read_sound state sound due blocks entered
  | write =>
    simp only [Rwlock.enter, Option.some.injEq] at entered
    subst entered
    exact enter_write_sound state cpu sound due blocks

theorem wakeall_sound (counted : Counted state) : Sound (wakeall state) := by
  obtain ⟨writers, listed, waiting⟩ := counted.waiting
  have nobody : ∀ thread, ¬ ((wakeall state).phase thread).Asleep := by
    rintro thread ⟨mode, asleep⟩
    by_cases onChannel : thread ∈ state.lock.wchan
    · cases before : state.phase thread <;> simp [wakeall, onChannel, before, Phase.roused] at asleep
    · simp only [wakeall, if_neg onChannel] at asleep
      exact onChannel ((counted.queued.members thread).mpr ⟨mode, asleep⟩)
  refine ⟨{ counted with waiting := ⟨writers, ?_, waiting⟩, queued := Lists.nobody nobody }, ?_⟩
  · apply listed.all_unaffected
    intro thread
    by_cases onChannel : thread ∈ state.lock.wchan
    · cases before : state.phase thread <;>
        simp [wakeall, onChannel, before, Phase.roused]
    · simp [wakeall, onChannel]
  · intro thread mode asleep
    exact absurd ⟨mode, asleep⟩ (nobody thread)

end

variable [DecidableEq Cpu]

/-- A reader that finds a slot with its CPU leaves one reader and one slot fewer. -/
theorem leave_read_counted (sound : Sound state) (member : thread ∈ state.readers)
    (left : state.lock.leave cpu .read = some lock) :
    Counted { state with lock := lock, readers := state.readers.erase thread } := by
  simp only [Rwlock.leave, Option.map_eq_some_iff] at left
  obtain ⟨slot, found, rfl⟩ := left
  obtain ⟨inside, held, _⟩ := List.findIdx?_eq_some_iff_getElem.mp found
  have recorded : state.lock.readerHolders[slot] = some cpu := of_decide_eq_true held
  have fewer := List.length_erase_of_mem member
  have positive := List.length_pos_of_mem member
  have nonzero : state.lock.readerCount ≠ 0 := by
    intro zero
    have none := sound.counted
    rw [zero, UInt32.toNat_zero] at none
    omega
  have down := count_down nonzero
  rw [sound.counted] at down
  refine ⟨?_, ?_, ?_, ?_, sound.waiting, sound.queued⟩
  · rcases sound.alone with out | ⟨_, none, _⟩
    · exact Or.inl out
    · simp [none] at member
  · simp only [fewer]
    omega
  · simpa using sound.slots
  · have cleared := (occupied_set none inside (by
      simp [recorded])).2 rfl
    rw [sound.occupied] at cleared
    simp only [fewer]
    omega

theorem leave_write_counted (sound : Sound state) (member : thread ∈ state.writers)
    (left : state.lock.leave cpu .write = some lock) :
    Counted { state with lock := lock, writers := state.writers.erase thread } := by
  simp only [Rwlock.leave, guard_some] at left
  obtain ⟨_, rfl⟩ := left
  refine { sound with alone := Or.inl ⟨rfl, ?_⟩ }
  rcases sound.alone with ⟨_, none⟩ | ⟨_, _, writer, single⟩
  · simp [none] at member
  · have same : thread = writer := by simpa [single] using member
    simp [single, same]

/-- Every step keeps the invariant. One case per action. -/
theorem next_sound {action : Action Cpu Thread} {after : State Cpu Thread} (sound : Sound state)
    (taken : next state action = some after) : Sound after := by
  cases action with simp only [next, Option.ite_none_right_eq_some] at taken
  | acquire thread cpu mode =>
    obtain ⟨running, taken⟩ := taken
    rw [attempt_announced] at taken
    exact attempt_sound _ (announced_sound state mode sound running) (by simp [announced]) taken
  | retry thread cpu mode =>
    exact attempt_sound state sound taken.1 taken.2
  | release thread cpu mode =>
    rw [Option.map_eq_some_iff] at taken
    obtain ⟨⟨_, member⟩, lock, left, rfl⟩ := taken
    apply wakeall_sound
    cases mode with
    | read => exact leave_read_counted sound member left
    | write => exact leave_write_counted sound member left

/-- In every state some interleaving arrives at, in which every release has got past its
assertion and every reader has found a slot: a writer inside is alone, `reader_count` is
the number of readers inside, `writer_waiting` is the number of writers waiting, and a
thread that is asleep on the lock is blocked. The slots have run out exactly when a
thousand readers are inside. -/
theorem writers_alone_and_sleepers_blocked (state : State Cpu Thread)
    (reached : Reaches next Anything Initial state) :
    (∀ writer, writer ∈ state.writers → state.writers = [writer] ∧ state.readers = []) ∧
      state.lock.readerCount.toNat = state.readers.length ∧
      (∃ writers : List Thread, writers.Nodup ∧ (∀ thread, thread ∈ writers ↔
          state.phase thread = .asleep .write ∨ state.phase thread = .woken .write) ∧
        state.lock.writerWaiting = writers.length) ∧
      (∀ thread mode, state.phase thread = .asleep mode → state.lock.Blocks mode) ∧
      (state.lock.readerHolders.findIdx? (fun holder => holder.isNone) = none ↔
        state.readers.length = 1000) := by
  have sound : Sound state := reached.invariant initial_sound
    (fun state action after sound _ taken => next_sound sound taken)
  obtain ⟨writers, listed, waiting⟩ := sound.waiting
  refine ⟨?_, sound.counted, ⟨writers, listed.distinct, listed.members, waiting⟩, sound.blocked,
    sound.toCounted.full_iff⟩
  intro writer member
  rcases sound.alone with ⟨_, none⟩ | ⟨_, noReaders, single, only⟩
  · simp [none] at member
  · have same : writer = single := by simpa [only] using member
    exact ⟨by rw [only, same], noReaders⟩

/-- Three threads and two CPUs before anybody has called anything. -/
def untouched : State Bool Nat := ⟨rwlockCreate, fun _ => .running, [], []⟩

/-- A reader comes in, a writer and another reader go to sleep behind it, and the reader
leaves. The second reader comes in before the woken writer has run. -/
def readerFirst : List (Action Bool Nat) :=
  [.acquire 0 true .read, .acquire 1 false .write, .acquire 2 false .read,
    .release 0 true .read, .retry 2 false .read, .retry 1 false .write]

/-- At the end of that schedule the writer is asleep again, behind one reader. -/
theorem writers_alone_after_reader_first :
    ∃ state, exec next untouched readerFirst = some state ∧ state.phase 1 = .asleep .write ∧
      state.lock.readerCount.toNat = state.readers.length ∧ state.readers = [2] ∧
      state.lock.Blocks .write := by
  obtain ⟨state, evaluated, asleep, readers⟩ : ∃ state ∈ exec next untouched readerFirst,
      state.phase 1 = .asleep .write ∧ state.readers = [2] := by
    decide +kernel
  have reached := reaches_of_exec Initial readerFirst ⟨rfl, fun _ => rfl, rfl, rfl⟩ evaluated
  obtain ⟨_, counted, _, blocked, _⟩ := writers_alone_and_sleepers_blocked state reached
  exact ⟨state, evaluated, asleep, counted, readers, blocked 1 .write asleep⟩

end Os161.Synch.RwLock
