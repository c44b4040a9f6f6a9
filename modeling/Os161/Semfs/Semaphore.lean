import Os161.Library.Runs
import Mathlib.Algebra.Group.Nat.Defs
import Mathlib.Data.List.Nodup

/-!
# Reading and writing one semfs semaphore

A read of a semaphore file consumes counts and waits on a condition variable when
there are none left; a write adds counts and wakes waiters. Any number of threads
do both. A step takes or releases the semaphore's lock, goes to sleep or wakes
others, together with the code up to the next such point. The lock is exclusive.

`cv_wait` holds the spinlock of the condition variable from before it releases
the lock until the caller is on the channel. `cv_signal` and `cv_broadcast`
release the caller's lock, wake, and take the lock again. A write computes the
new count before its wakeup and stores it afterwards, so between the two it does
not hold the lock it computed under.
-/
namespace Os161.Semfs

open Os161.Library.Runs Function

variable {Thread : Type}

/-- Where a thread is. A reader is about to take the lock, in `cv_wait` before the
release, on its way to the channel, asleep, woken and due to take the lock again,
or done and about to release. A writer is about to take the lock, in its wakeup
before the release, about to wake, due to take the lock again, or done. The
number is what remains of the request; a writer in its wakeup has also computed
the new count. -/
inductive Pc
  | idle
  | reader (resid : Nat)
  | readerWaits (resid : Nat)
  | readerFalls (resid : Nat)
  | readerSleeps (resid : Nat)
  | readerWoken (resid : Nat)
  | readerDone
  | writer (resid : Nat)
  | writerSignals (newcount resid : Nat)
  | writerWakes (newcount resid : Nat)
  | writerRetakes (newcount resid : Nat)
  | writerDone
  deriving DecidableEq

/-- `sems_count`, the owner of `sems_lock`, the holder of the condition variable's
spinlock, its channel, the place of each thread, and everything written to and
consumed from the semaphore so far. -/
structure State (Thread : Type) where
  count : Nat
  owner : Option Thread
  cvLock : Option Thread
  wchan : List Thread
  pc : Thread → Pc
  written : Nat
  consumed : Nat

/-- The scheduling points of the two calls. -/
inductive Action (Thread : Type)
  | callRead (thread : Thread) (resid : Nat)
  | callWrite (thread : Thread) (resid : Nat)
  | acquire (thread : Thread)
  | release (thread : Thread)
  | sleep (thread : Thread)
  | wake (thread : Thread)

/-- A semaphore with some count and no thread in it. -/
def Initial (initial : Nat) (state : State Thread) : Prop :=
  state.count = initial ∧ initial < 2 ^ 32 ∧ state.owner = none ∧ state.cvLock = none ∧
    state.wchan = [] ∧ (∀ thread, state.pc thread = .idle) ∧ state.written = 0 ∧
    state.consumed = 0

section

variable [DecidableEq Thread] (state : State Thread) (thread : Thread)

/-- `semfs_read` from where it holds the lock to its next scheduling point: it
consumes what there is, up to what it wants, and waits when it wants more. -/
def semfsRead (resid : Nat) : State Thread :=
  let consume := min resid state.count
  { state with
    owner := some thread
    count := state.count - consume
    consumed := state.consumed + consume
    pc := update state.pc thread
      (if resid - consume = 0 then .readerDone else .readerWaits (resid - consume)) }

/-- Store the new count, which completes a write. -/
def storeCount (newcount resid : Nat) : State Thread :=
  { state with
    owner := some thread
    count := newcount
    written := state.written + resid
    pc := update state.pc thread .writerDone }

/-- `semfs_write` from where it holds the lock to its next scheduling point. An
unsigned sum below the count is an overflow and ends the call. `semfs_wakeup`
wakes nobody when the old count is positive or the new one is zero. -/
def semfsWrite (resid : Nat) : State Thread :=
  let newcount := (state.count + resid) % 2 ^ 32
  if resid = 0 ∨ newcount < state.count then
    { state with
      owner := some thread
      pc := update state.pc thread .writerDone }
  else if 0 < state.count ∨ newcount = 0 then
    storeCount state thread newcount resid
  else
    { state with
      owner := some thread
      pc := update state.pc thread (.writerSignals newcount resid) }

/-- The threads of a list that were asleep are woken. -/
def rouse (pc : Thread → Pc) (woken : List Thread) (thread : Thread) : Pc :=
  match pc thread with
  | .readerSleeps resid => if thread ∈ woken then .readerWoken resid else .readerSleeps resid
  | other => other

/-- `wchan_wakeone` for a new count of one, `wchan_wakeall` for more. -/
def cvWake (newcount resid : Nat) : State Thread :=
  let woken := if newcount = 1 then state.wchan.take 1 else state.wchan
  { state with
    wchan := if newcount = 1 then state.wchan.drop 1 else []
    pc := update (rouse state.pc woken) thread (.writerRetakes newcount resid) }

/-- The transition function. -/
def next : Action Thread → Option (State Thread)
  | .callRead thread resid =>
    if state.pc thread = .idle ∧ resid < 2 ^ 32 then
      some { state with pc := update state.pc thread (.reader resid) }
    else none
  | .callWrite thread resid =>
    if state.pc thread = .idle ∧ resid < 2 ^ 32 then
      some { state with pc := update state.pc thread (.writer resid) }
    else none
  | .acquire thread =>
    if state.owner = none then
      match state.pc thread with
      | .reader resid | .readerWoken resid => some (semfsRead state thread resid)
      | .writer resid => some (semfsWrite state thread resid)
      | .writerRetakes newcount resid => some (storeCount state thread newcount resid)
      | _ => none
    else none
  | .release thread =>
    match state.pc thread with
    | .readerDone | .writerDone =>
      some { state with owner := none, pc := update state.pc thread .idle }
    | .readerWaits resid =>
      if state.cvLock = none then
        some { state with
          owner := none
          cvLock := some thread
          pc := update state.pc thread (.readerFalls resid) }
      else none
    | .writerSignals newcount resid =>
      some { state with
        owner := none
        pc := update state.pc thread (.writerWakes newcount resid) }
    | _ => none
  | .sleep thread =>
    match state.pc thread with
    | .readerFalls resid =>
      some { state with
        cvLock := none
        wchan := state.wchan ++ [thread]
        pc := update state.pc thread (.readerSleeps resid) }
    | _ => none
  | .wake thread =>
    match state.pc thread with
    | .writerWakes newcount resid =>
      if state.cvLock = none then some (cvWake state thread newcount resid) else none
    | _ => none

end

/-- A woken reader, or a writer that has not stored its count, is still to run its
critical section. -/
def StillDue : Pc → Prop
  | .readerWoken _ | .writer _ | .writerSignals _ _ | .writerWakes _ _ | .writerRetakes _ _ => True
  | _ => False

/-- Whenever the lock is free the count is what was there, plus what was written,
minus what was consumed; and no reader sleeps while the count is positive unless
somebody is still to run a critical section. -/
def Exact (initial : Nat) (state : State Thread) : Prop :=
  (state.owner = none → state.count + state.consumed = initial + state.written) ∧
    ((∃ thread resid, state.pc thread = .readerSleeps resid) → 0 < state.count →
      ∃ thread, StillDue (state.pc thread))

/-- A writer that has dropped the lock for its wakeup and not taken it again. -/
def InWakeup : Pc → Prop
  | .writerWakes _ _ | .writerRetakes _ _ => True
  | _ => False

/-- A thread takes the lock only while no other thread is in its wakeup, and a
writer that finds the count positive finds nobody asleep. -/
def Orderly (state : State Thread) : Action Thread → Prop
  | .acquire thread => (∀ other, other ≠ thread → ¬ InWakeup (state.pc other)) ∧
      (∀ resid, state.pc thread = .writer resid → 0 < resid → 0 < state.count → state.wchan = [])
  | _ => True

/-- A thread that owns the lock. -/
def Holds : Pc → Prop
  | .readerWaits _ | .readerDone | .writerSignals _ _ | .writerDone => True
  | _ => False

/-- A thread that has found no counts and is not on the channel yet. -/
def Falling : Pc → Prop
  | .readerWaits _ | .readerFalls _ => True
  | _ => False

/-- A writer between computing its new count and storing it. -/
def Updating (newcount resid : Nat) (pc : Pc) : Prop :=
  pc = .writerSignals newcount resid ∨ pc = .writerWakes newcount resid ∨
    pc = .writerRetakes newcount resid

/-- A reader that has found fewer counts than it wants. -/
def Wanting (resid : Nat) (pc : Pc) : Prop :=
  pc = .readerWaits resid ∨ pc = .readerFalls resid ∨ pc = .readerSleeps resid ∨
    pc = .readerWoken resid

attribute [local simp] Falling InWakeup Holds Wanting Updating

/-- Whoever sleeps on the channel has been provided for: nobody is on the way
there, and the channel is empty or the count covers a single woken reader. -/
structure Covered (count : Nat) (state : State Thread) : Prop where
  none_falling : ∀ thread, ¬ Falling (state.pc thread)
  none_stranded : state.wchan = [] ∨
    (count = 1 ∧ ∃ thread resid, state.pc thread = .readerWoken resid)

/-- What the invariant says of one thread at a place. A writer that has computed a new count did
so from a count of zero that nobody has changed. -/
structure Fits (state : State Thread) (thread : Thread) (pc : Pc) : Prop where
  requested : ∀ resid, pc = .writer resid → resid < 2 ^ 32
  wanting : ∀ resid, Wanting resid pc → 0 < resid
  updating : ∀ newcount resid, Updating newcount resid pc →
    state.count = 0 ∧ newcount = resid ∧ resid < 2 ^ 32
  holds : Holds pc → state.owner = some thread
  falling : ∀ resid, pc = .readerFalls resid → state.cvLock = some thread
  sleeping : thread ∈ state.wchan ↔ ∃ resid, pc = .readerSleeps resid
  retaking : ∀ newcount resid, pc = .writerRetakes newcount resid → Covered newcount state

/-- The invariant of the orderly runs: the books balance, at most one thread is in its wakeup,
the sleepers are covered, and every thread fits its place. -/
structure Sound (initial : Nat) (state : State Thread) : Prop where
  conserved : state.count + state.consumed = initial + state.written
  small : state.count < 2 ^ 32
  wakeup : ∀ thread, InWakeup (state.pc thread) →
    state.owner = none ∧ ∀ other, InWakeup (state.pc other) → other = thread
  distinct : state.wchan.Nodup
  covered : 0 < state.count → Covered state.count state
  fits : ∀ thread, Fits state thread (state.pc thread)

theorem initial_sound (initial : Nat) (state : State Thread) (fresh : Initial initial state) :
    Sound initial state := by
  obtain ⟨counted, small, unowned, unlocked, unslept, idle, unwritten, unconsumed⟩ := fresh
  refine ⟨by omega, by omega, by simp [idle], by simp [unslept], fun _ => ⟨by simp [idle],
    Or.inl unslept⟩, fun thread => ?_⟩
  rw [idle]
  exact ⟨by simp, by simp, by simp, by simp, by simp, by simp [unslept], by simp⟩

variable {state : State Thread} {thread : Thread} {initial resid : Nat} {cvLock : Option Thread}

/-- A sum that is not below the count has not wrapped. -/
theorem newcount_exact {count : Nat} (small : count < 2 ^ 32) (requested : resid < 2 ^ 32)
    (kept : ¬ (count + resid) % 2 ^ 32 < count) : (count + resid) % 2 ^ 32 = count + resid := by
  omega

theorem Sound.absent (sound : Sound initial state)
    (awake : ∀ resid, state.pc thread ≠ .readerSleeps resid) : thread ∉ state.wchan := by
  rw [(sound.fits thread).sleeping]
  simp [awake]

/-- One thread has moved to another place. -/
structure Moves (state after : State Thread) (thread : Thread) (place : Pc) : Prop where
  here : after.pc thread = place
  elsewhere : ∀ other, other ≠ thread → after.pc other = state.pc other

theorem moves_update [DecidableEq Thread] {after : State Thread} {place : Pc}
    (pc : after.pc = update state.pc thread place) : Moves state after thread place where
  here := by rw [pc, update_self]
  elsewhere := fun other differs => by rw [pc, update_of_ne differs]

section moving

variable {state after : State Thread} {thread : Thread} {place : Pc}
  (moves : Moves state after thread place)

include moves

/-- What holds at the new place of the thread that moved and at the old places of all
others holds at every place. -/
theorem Moves.everywhere (property : Thread → Pc → Prop) (new : property thread place)
    (old : ∀ other, other ≠ thread → property other (state.pc other)) (other : Thread) :
    property other (after.pc other) := by
  by_cases same : other = thread
  · rw [same, moves.here]
    exact new
  · rw [moves.elsewhere other same]
    exact old other same

/-- Whoever is in a wakeup was so before, if the thread that moved is not. -/
theorem Moves.in_wakeup (dropped : ¬ InWakeup place) :
    ∀ other, InWakeup (after.pc other) → InWakeup (state.pc other) ∧ other ≠ thread := by
  intro other inside
  have differs : other ≠ thread := by
    intro same
    rw [same, moves.here] at inside
    exact dropped inside
  rw [moves.elsewhere other differs] at inside
  exact ⟨inside, differs⟩

theorem Moves.wakeup (sound : Sound initial state) (owner : after.owner = state.owner)
    (dropped : ¬ InWakeup place) (other : Thread) (inside : InWakeup (after.pc other)) :
    after.owner = none ∧ ∀ another, InWakeup (after.pc another) → another = other := by
  obtain ⟨unowned, only⟩ := sound.wakeup other (moves.in_wakeup dropped other inside).1
  exact ⟨owner.trans unowned, fun another within => only another (moves.in_wakeup dropped another within).1⟩

/-- The sleepers stay covered when a thread moves that is not the woken reader. -/
theorem Moves.covered {count : Nat} (covered : Covered count state)
    (wchan : after.wchan = state.wchan) (settled : ¬ Falling place)
    (different : ∀ resid, state.pc thread ≠ .readerWoken resid) : Covered count after where
  none_falling :=
    moves.everywhere (fun _ pc => ¬ Falling pc) settled (fun other _ => covered.none_falling other)
  none_stranded := by
    rcases covered.none_stranded with unslept | ⟨single, woken, resid, woken_place⟩
    · exact Or.inl (wchan.trans unslept)
    · have differs : woken ≠ thread := by
        rintro rfl
        exact different resid woken_place
      exact Or.inr ⟨single, woken, resid, (moves.elsewhere woken differs).trans woken_place⟩

end moving

/-- A place at which a call begins. -/
def Calling (called : Pc) : Prop :=
  (∃ resid, called = .reader resid) ∨ ∃ resid, called = .writer resid ∧ resid < 2 ^ 32

/-- Nothing is promised about a thread whose call begins. -/
theorem Calling.bare {called : Pc} (calling : Calling called) :
    (∀ resid, called = .writer resid → resid < 2 ^ 32) ∧ (∀ resid, ¬ Wanting resid called) ∧
      (∀ newcount resid, ¬ Updating newcount resid called) ∧ ¬ Holds called ∧ ¬ InWakeup called ∧
        ¬ Falling called ∧ ∀ resid, called ≠ .readerSleeps resid := by
  rcases calling with ⟨resid, rfl⟩ | ⟨resid, rfl, small⟩
  · simp
  · simpa using small

/-- Starting a call changes nothing but the place of the caller. -/
theorem call_sound [DecidableEq Thread] {called : Pc} (sound : Sound initial state)
    (idle : state.pc thread = .idle) (calling : Calling called) :
    Sound initial { state with pc := update state.pc thread called } := by
  obtain ⟨requested, unwanting, unupdating, unowning, dropped, settled, awake⟩ := calling.bare
  have moves : Moves state { state with pc := update state.pc thread called } thread called :=
    moves_update rfl
  have unwoken : ∀ resid, state.pc thread ≠ .readerWoken resid := by simp [idle]
  refine ⟨sound.conserved, sound.small, moves.wakeup sound rfl dropped, sound.distinct,
    fun positive => moves.covered (sound.covered positive) rfl settled unwoken,
    moves.everywhere (Fits _) ?_ fun other _ => ?_⟩
  · exact {
      requested := requested
      wanting := fun resid wants => absurd wants (unwanting resid)
      updating := fun newcount resid updates => absurd updates (unupdating newcount resid)
      holds := fun owns => absurd owns unowning
      falling := fun resid falls => absurd (by simp [falls]) settled
      sleeping := iff_of_false (sound.absent (by simp [idle])) (by simp [awake])
      retaking := fun newcount resid retakes => absurd (by simp [retakes]) dropped }
  · obtain ⟨requested, wanting, updating, holds, falling, sleeping, retaking⟩ := sound.fits other
    exact ⟨requested, wanting, updating, holds, falling, sleeping, fun newcount resid retakes =>
      moves.covered (retaking newcount resid retakes) rfl settled unwoken⟩

/-- A thread that owns the lock is in no wakeup, wants no channel but by waiting, and is
in the middle of no update but by signalling. -/
theorem owning_place {place : Pc} (owning : Holds place) :
    ¬ InWakeup place ∧ (∀ resid, place ≠ .writer resid) ∧ (∀ resid, place ≠ .readerFalls resid) ∧
      (∀ resid, place ≠ .readerSleeps resid) ∧
      (∀ resid, Wanting resid place → place = .readerWaits resid) ∧
      ∀ newcount resid, Updating newcount resid place → place = .writerSignals newcount resid := by
  cases place <;> simp_all

/-- A thread that takes the lock while no other is in its wakeup keeps the
invariant, wherever its critical section leads, if the books balance there and
the sleepers are covered. -/
theorem acquired_sound [DecidableEq Thread] (thread : Thread) (place : Pc)
    {count written consumed : Nat} (sound : Sound initial state) (free : state.owner = none)
    (alone : ∀ other, other ≠ thread → ¬ InWakeup (state.pc other))
    (awake : ∀ resid, state.pc thread ≠ .readerSleeps resid)
    (conserved : count + consumed = initial + written) (small : count < 2 ^ 32)
    (owning : Holds place) (wanting : ∀ resid, place = .readerWaits resid → 0 < resid)
    (updating : ∀ newcount resid, place = .writerSignals newcount resid →
      count = 0 ∧ newcount = resid ∧ resid < 2 ^ 32)
    (covered : 0 < count → ¬ Falling place ∧ (∀ other, ¬ Falling (state.pc other)) ∧
      (state.wchan = [] ∨
        count = 1 ∧ ∃ other resid, other ≠ thread ∧ state.pc other = .readerWoken resid)) :
    Sound initial { state with
      count := count
      owner := some thread
      pc := update state.pc thread place
      written := written
      consumed := consumed } := by
  obtain ⟨dropped, unrequested, unfalling, unslept, waits, signals⟩ := owning_place owning
  have moves : Moves state { state with
      count := count
      owner := some thread
      pc := update state.pc thread place
      written := written
      consumed := consumed } thread place := moves_update rfl
  have unheld (other : Thread) : ¬ Holds (state.pc other) := by
    intro holds
    have owned := (sound.fits other).holds holds
    simp [free] at owned
  have alone' (other : Thread) (differs : other ≠ thread) (newcount resid : Nat) :
      ¬ Updating newcount resid (state.pc other) := by
    rintro (signals | wakes | retakes)
    · exact unheld other (by simp [signals])
    · exact alone other differs (by simp [wakes])
    · exact alone other differs (by simp [retakes])
  refine ⟨conserved, small, fun other inside => ?_, sound.distinct, fun positive => ?_,
    moves.everywhere (Fits _) ?_ fun other differs => ?_⟩
  · obtain ⟨within, differs⟩ := moves.in_wakeup dropped other inside
    exact absurd within (alone other differs)
  · obtain ⟨settled, none_falling, woken⟩ := covered positive
    refine ⟨moves.everywhere (fun _ pc => ¬ Falling pc) settled (fun other _ => none_falling other),
      woken.imp_right ?_⟩
    rintro ⟨single, other, resid, differs, woken⟩
    exact ⟨single, other, resid, (moves.elsewhere other differs).trans woken⟩
  · exact {
      requested := fun resid writes => absurd writes (unrequested resid)
      wanting := fun resid wants => wanting resid (waits resid wants)
      updating := fun newcount resid updates => updating newcount resid (signals newcount resid updates)
      holds := fun _ => rfl
      falling := fun resid falls => absurd falls (unfalling resid)
      sleeping := iff_of_false (sound.absent awake) (by simp [unslept])
      retaking := fun newcount resid retakes => absurd (by simp [retakes]) dropped }
  · obtain ⟨requested, wanting, _, _, falling, sleeping, _⟩ := sound.fits other
    exact ⟨requested, wanting, fun newcount resid updates =>
      absurd updates (alone' other differs newcount resid), fun holds => absurd holds (unheld other),
      falling, sleeping, fun newcount resid retakes =>
        absurd (by simp [retakes]) (alone other differs)⟩

section

variable [DecidableEq Thread] (initial : Nat) (state : State Thread) (thread : Thread) (resid : Nat)
  (sound : Sound initial state) (free : state.owner = none)

include sound free

/-- A reader consumes, and then releases or waits. It waits only at count zero,
and if it was the woken reader that covered the sleepers it leaves no count. -/
theorem semfs_read_sound (orderly : Orderly state (.acquire thread))
    (due : state.pc thread = .reader resid ∨ state.pc thread = .readerWoken resid) :
    Sound initial (semfsRead state thread resid) := by
  have conserved := sound.conserved
  have small := sound.small
  refine acquired_sound thread _ sound free orderly.1 ?_ ?_ ?_ ?_ ?_ ?_ ?_
  · intro other
    rcases due with due | due <;> simp [due]
  · omega
  · omega
  · split <;> trivial
  · intro left moved
    split at moved
    · cases moved
    · cases moved
      omega
  · intro newcount other moved
    split at moved <;> cases moved
  · intro positive
    have enough : resid - min resid state.count = 0 := by omega
    obtain ⟨none_falling, none_stranded⟩ := sound.covered (by omega)
    refine ⟨by simp [enough], none_falling, ?_⟩
    rcases none_stranded with unslept | ⟨single, woken, wanted, place⟩
    · exact Or.inl unslept
    refine Or.inr ⟨by omega, woken, wanted, ?_, place⟩
    rintro rfl
    have wants := (sound.fits woken).wanting wanted (by simp [place])
    rcases due with due | due
    · simp [due] at place
    · have same : resid = wanted := by simpa [due] using place
      omega

theorem store_count_sound (alone : ∀ other, other ≠ thread → ¬ InWakeup (state.pc other))
    (due : state.pc thread = .writer resid ∨
      ∃ newcount, state.pc thread = .writerRetakes newcount resid)
    (small : state.count + resid < 2 ^ 32) (covered : Covered (state.count + resid) state) :
    Sound initial (storeCount state thread (state.count + resid) resid) := by
  have conserved := sound.conserved
  refine acquired_sound thread .writerDone sound free alone ?_ (by omega) small
    trivial (by simp) (by simp) ?_
  · intro other
    rcases due with due | ⟨newcount, due⟩ <;> simp [due]
  · intro positive
    refine ⟨by simp, covered.none_falling, ?_⟩
    rcases covered.none_stranded with unslept | ⟨single, woken, wanted, place⟩
    · exact Or.inl unslept
    · refine Or.inr ⟨single, woken, wanted, ?_, place⟩
      rintro rfl
      rcases due with due | ⟨newcount, due⟩ <;> simp [due] at place

/-- A writer is refused, stores at once over a positive count, or computes its
count from zero and goes on to wake. -/
theorem semfs_write_sound (orderly : Orderly state (.acquire thread))
    (due : state.pc thread = .writer resid) : Sound initial (semfsWrite state thread resid) := by
  have requested := (sound.fits thread).requested resid due
  have awake (left : Nat) : state.pc thread ≠ .readerSleeps left := by simp [due]
  unfold semfsWrite
  dsimp only
  split
  · refine acquired_sound thread .writerDone sound free orderly.1 awake
      sound.conserved sound.small trivial (by simp) (by simp) ?_
    intro positive
    obtain ⟨none_falling, none_stranded⟩ := sound.covered positive
    refine ⟨by simp, none_falling, none_stranded.imp_right ?_⟩
    rintro ⟨single, woken, wanted, place⟩
    refine ⟨single, woken, wanted, ?_, place⟩
    rintro rfl
    simp [due] at place
  · rename_i accepted
    push Not at accepted
    have exactly := newcount_exact sound.small requested (by omega)
    rw [exactly] at accepted ⊢
    split
    · rename_i positive
      have counted : 0 < state.count := by omega
      refine store_count_sound initial state thread resid sound free orderly.1 (Or.inl due)
        (by omega) ⟨(sound.covered counted).none_falling, Or.inl ?_⟩
      exact orderly.2 resid due (by omega) counted
    · rename_i zero
      refine acquired_sound thread (.writerSignals (state.count + resid) resid)
        sound free orderly.1 awake sound.conserved sound.small trivial (by simp) ?_ (by omega)
      rintro newcount left ⟨⟩
      omega

end

/-- Where a release leads: to the end of the call, on to the channel with the spinlock of
the condition variable, or on to the wakeup. -/
def Releases (state : State Thread) (thread : Thread) (place : Pc) (cvLock : Option Thread) : Prop :=
  (place = .idle ∧ cvLock = state.cvLock) ∨
    (∃ resid, state.pc thread = .readerWaits resid ∧ place = .readerFalls resid ∧
      state.cvLock = none ∧ cvLock = some thread) ∨
    ∃ newcount resid, state.pc thread = .writerSignals newcount resid ∧
      place = .writerWakes newcount resid ∧ cvLock = state.cvLock

/-- What is promised about a thread that has released the lock was promised before. -/
theorem Releases.place {place : Pc} (releases : Releases state thread place cvLock)
    (sound : Sound initial state) :
    (∀ resid, place ≠ .writer resid) ∧ (∀ resid, Wanting resid place → 0 < resid) ∧
      (∀ newcount resid, Updating newcount resid place →
        state.count = 0 ∧ newcount = resid ∧ resid < 2 ^ 32) ∧
      ¬ Holds place ∧ (∀ newcount resid, place ≠ .writerRetakes newcount resid) ∧
      (∀ resid, place ≠ .readerSleeps resid) ∧
      (Falling place → Falling (state.pc thread) ∧ cvLock = some thread) := by
  rcases releases with ⟨rfl, _⟩ | ⟨resid, waits, rfl, _, rfl⟩ | ⟨newcount, resid, signals, rfl, _⟩
  · simp
  · have wants := (sound.fits thread).wanting resid (Or.inl waits)
    simpa [waits] using wants
  · have updates := (sound.fits thread).updating newcount resid (Or.inl signals)
    simpa using updates

/-- A spinlock that another thread holds on its way to the channel stays with it. -/
theorem Releases.cv_lock {other : Thread} {place : Pc}
    (releases : Releases state thread place cvLock) (locked : state.cvLock = some other) :
    cvLock = some other := by
  rcases releases with ⟨_, rfl⟩ | ⟨_, _, _, free, _⟩ | ⟨_, _, _, _, rfl⟩
  · exact locked
  · rw [free] at locked
    cases locked
  · exact locked

theorem released_sound [DecidableEq Thread] {place : Pc} (sound : Sound initial state)
    (owning : Holds (state.pc thread)) (releases : Releases state thread place cvLock) :
    Sound initial { state with
      owner := none
      cvLock := cvLock
      pc := update state.pc thread place } := by
  obtain ⟨unrequested, wanting, updating, unowning, unretaking, unslept, falling⟩ :=
    releases.place sound
  obtain ⟨_, _, _, awake, _⟩ := owning_place owning
  have owned := (sound.fits thread).holds owning
  have moves : Moves state { state with
      owner := none
      cvLock := cvLock
      pc := update state.pc thread place } thread place := moves_update rfl
  have none_in_wakeup (other : Thread) : ¬ InWakeup (state.pc other) := by
    intro inside
    have unowned := (sound.wakeup other inside).1
    simp [owned] at unowned
  have wakes (other : Thread) : InWakeup (update state.pc thread place other) → other = thread := by
    intro inside
    by_contra differs
    rw [update_of_ne differs] at inside
    exact none_in_wakeup other inside
  have unwoken : ∀ resid, state.pc thread ≠ .readerWoken resid := by
    intro resid woken
    simp [woken] at owning
  refine ⟨sound.conserved, sound.small, fun other inside => ?_, sound.distinct,
    fun positive => ?_, moves.everywhere (Fits _) ?_ fun other differs => ?_⟩
  · refine ⟨rfl, fun another within => ?_⟩
    rw [wakes other inside, wakes another within]
  · have covered := sound.covered positive
    exact moves.covered covered rfl
      (fun falls => covered.none_falling thread (falling falls).1) unwoken
  · exact {
      requested := fun resid writes => absurd writes (unrequested resid)
      wanting := wanting
      updating := updating
      holds := fun owns => absurd owns unowning
      falling := fun resid falls => (falling (by simp [falls])).2
      sleeping := iff_of_false (sound.absent awake) (by simp [unslept])
      retaking := fun newcount resid retakes => absurd retakes (unretaking newcount resid) }
  · have fits := sound.fits other
    exact { fits with
      holds := fun owns => absurd (Option.mem_unique (fits.holds owns) owned) differs
      falling := fun resid falls => releases.cv_lock (fits.falling resid falls)
      retaking := fun newcount resid retakes =>
        absurd (by simp [retakes]) (none_in_wakeup other) }

/-- A reader reaches the channel. The count is zero and no writer is past its
wakeup, or the reader would have been noticed. -/
theorem sleep_sound [DecidableEq Thread] (sound : Sound initial state)
    (falling : state.pc thread = .readerFalls resid) :
    Sound initial { state with
      cvLock := none
      wchan := state.wchan ++ [thread]
      pc := update state.pc thread (.readerSleeps resid) } := by
  have moves : Moves state { state with
      cvLock := none
      wchan := state.wchan ++ [thread]
      pc := update state.pc thread (.readerSleeps resid) } thread (.readerSleeps resid) :=
    moves_update rfl
  have uncovered (count : Nat) : ¬ Covered count state := by
    intro covered
    exact covered.none_falling thread (by simp [falling])
  have wanting := (sound.fits thread).wanting resid (Or.inr (Or.inl falling))
  have locked := (sound.fits thread).falling resid falling
  have absent := sound.absent (show ∀ left, state.pc thread ≠ .readerSleeps left by simp [falling])
  refine ⟨sound.conserved, sound.small, moves.wakeup sound rfl (by simp), ?_,
    fun positive => absurd (sound.covered positive) (uncovered state.count),
    moves.everywhere (Fits _) ?_ fun other differs => ?_⟩
  · refine List.nodup_append.mpr ⟨sound.distinct, List.nodup_singleton thread, ?_⟩
    rintro other member last only rfl
    exact absent (List.mem_singleton.mp only ▸ member)
  · exact ⟨by simp, by simpa using wanting, by simp, by simp, by simp, by simp, by simp⟩
  · obtain ⟨requested, wanting, updating, holds, falling, sleeping, retaking⟩ := sound.fits other
    refine ⟨requested, wanting, updating, holds, fun left falls => ?_, ?_, fun newcount left retakes => ?_⟩
    · exact absurd (Option.mem_unique locked (falling left falls)).symm differs
    · rw [List.mem_append, List.mem_singleton, sleeping]
      exact or_iff_left differs
    · exact absurd (retaking newcount left retakes) (uncovered newcount)

/-- A writer has woken some of the sleepers, and nobody was on the way to the
channel, since the spinlock was free. -/
theorem woken_sound {newcount : Nat} {asleep : List Thread} (woken : List Thread) {after : Thread → Pc}
    (sound : Sound initial state) (wakes : state.pc thread = .writerWakes newcount resid)
    (unlocked : state.cvLock = none) (partition : woken ++ asleep = state.wchan)
    (enough : asleep = [] ∨ (newcount = 1 ∧ woken ≠ []))
    (here : after thread = .writerRetakes newcount resid)
    (kept : ∀ other, other ≠ thread → other ∉ woken → after other = state.pc other)
    (roused : ∀ other, other ∈ woken → ∃ left, state.pc other = .readerSleeps left ∧
      after other = .readerWoken left) :
    Sound initial { state with wchan := asleep, pc := after } := by
  have distinct : (woken ++ asleep).Nodup := partition ▸ sound.distinct
  obtain ⟨_, asleep_distinct, apart⟩ := List.nodup_append.mp distinct
  have updating := (sound.fits thread).updating newcount resid (Or.inr (Or.inl wakes))
  obtain ⟨unowned, only⟩ := sound.wakeup thread (by simp [wakes])
  have moves (other : Thread) : other = thread ∨ (other ∉ woken ∧ after other = state.pc other) ∨
      ∃ left, other ∈ woken ∧ state.pc other = .readerSleeps left ∧
        after other = .readerWoken left := by
    by_cases same : other = thread
    · exact Or.inl same
    · by_cases member : other ∈ woken
      · obtain ⟨left, slept, moved⟩ := roused other member
        exact Or.inr (Or.inr ⟨left, member, slept, moved⟩)
      · exact Or.inr (Or.inl ⟨member, kept other same member⟩)
  have none_falling (other : Thread) : ¬ Falling (after other) := by
    intro falling
    rcases moves other with rfl | ⟨unroused, same⟩ | ⟨left, _, _, moved⟩
    · simp [here] at falling
    · rw [same] at falling
      match place : state.pc other with
      | .readerWaits left => simpa [unowned] using (sound.fits other).holds (by simp [place])
      | .readerFalls left => simpa [unlocked] using (sound.fits other).falling left place
      | .idle | .reader _ | .readerSleeps _ | .readerWoken _ | .readerDone | .writer _
      | .writerSignals _ _ | .writerWakes _ _ | .writerRetakes _ _ | .writerDone =>
        simp [place] at falling
    · simp [moved] at falling
  have covered : Covered newcount { state with wchan := asleep, pc := after } := by
    refine ⟨none_falling, enough.imp_right ?_⟩
    rintro ⟨single, nonempty⟩
    obtain ⟨first, member⟩ := List.exists_mem_of_ne_nil woken nonempty
    obtain ⟨left, _, moved⟩ := roused first member
    exact ⟨single, first, left, moved⟩
  have single (other : Thread) (inside : InWakeup (after other)) : other = thread := by
    rcases moves other with rfl | ⟨_, same⟩ | ⟨before, _, _, moved⟩
    · rfl
    · exact only other (same ▸ inside)
    · simp [moved] at inside
  refine ⟨sound.conserved, sound.small, fun other inside => ⟨unowned, fun another within => ?_⟩,
    asleep_distinct, fun positive => absurd updating.1 (Nat.ne_of_gt positive), fun other => ?_⟩
  · rw [single other inside, single another within]
  · have asleep_iff := (sound.fits other).sleeping
    rw [← partition, List.mem_append] at asleep_iff
    have fits := sound.fits other
    show Fits _ other (after other)
    rcases moves other with rfl | ⟨unroused, same⟩ | ⟨left, member, slept, moved⟩
    · rw [here]
      refine ⟨by simp, by simp, ?_, by simp, by simp, by simp_all, ?_⟩
      · rintro count left (signals | wakes | retakes)
        · cases signals
        · cases wakes
        · cases retakes
          exact updating
      · rintro count left ⟨⟩
        exact covered
    · rw [same]
      refine ⟨fits.requested, fits.wanting, fits.updating, fits.holds, fun left falls => ?_,
        by simpa [unroused] using asleep_iff, fun count left retakes => ?_⟩
      · exact absurd (by simp [same, falls]) (none_falling other)
      · have inside := only other (by simp [retakes])
        simp [inside, wakes] at retakes
    · rw [moved]
      refine ⟨by simp, fun before wants => ?_, by simp, by simp, by simp, ?_, by simp⟩
      · exact fits.wanting before (by simpa [slept] using wants)
      · have away : other ∉ asleep := fun stays => apart other member other stays rfl
        simp [away]

/-- Waking one sleeper for a single count, or all of them for more, is sound. -/
theorem cv_wake_sound [DecidableEq Thread] {newcount : Nat} (sound : Sound initial state)
    (wakes : state.pc thread = .writerWakes newcount resid) (unlocked : state.cvLock = none) :
    Sound initial (cvWake state thread newcount resid) := by
  refine woken_sound
    (if newcount = 1 then state.wchan.take 1 else state.wchan) sound wakes unlocked ?_ ?_
    (update_self _ _ _) ?_ ?_
  · split
    · exact List.take_append_drop 1 state.wchan
    · exact List.append_nil state.wchan
  · split
    · cases slept : state.wchan <;> simp_all
    · exact Or.inl rfl
  · intro other differs unroused
    rw [update_of_ne differs]
    unfold rouse
    split <;> simp_all
  · intro other roused
    have member : other ∈ state.wchan := by
      split at roused
      · exact List.mem_of_mem_take roused
      · exact roused
    obtain ⟨left, sleeps⟩ := (sound.fits other).sleeping.mp member
    have differs : other ≠ thread := by
      rintro rfl
      simp [wakes] at sleeps
    refine ⟨left, sleeps, ?_⟩
    rw [update_of_ne differs]
    simp [rouse, sleeps, roused]

/-- Every orderly step keeps the invariant. One case per action. -/
theorem next_sound [DecidableEq Thread] (initial : Nat) (state : State Thread)
    (action : Action Thread) (after : State Thread) (sound : Sound initial state)
    (orderly : Orderly state action) (advanced : next state action = some after) :
    Sound initial after := by
  cases action with simp only [next, Option.ite_none_right_eq_some] at advanced
  | callRead thread resid =>
    obtain ⟨⟨idle, _⟩, advanced⟩ := advanced
    cases advanced
    exact call_sound sound idle (Or.inl ⟨resid, rfl⟩)
  | callWrite thread resid =>
    obtain ⟨⟨idle, small⟩, advanced⟩ := advanced
    cases advanced
    exact call_sound sound idle (Or.inr ⟨resid, rfl, small⟩)
  | acquire thread =>
    obtain ⟨free, advanced⟩ := advanced
    split at advanced
    · rename_i resid due
      cases advanced
      exact semfs_read_sound initial state thread resid sound free orderly (Or.inl due)
    · rename_i resid due
      cases advanced
      exact semfs_read_sound initial state thread resid sound free orderly (Or.inr due)
    · rename_i resid due
      cases advanced
      exact semfs_write_sound initial state thread resid sound free orderly due
    · rename_i newcount resid due
      cases advanced
      obtain ⟨zero, rfl, small⟩ :=
        (sound.fits thread).updating newcount resid (Or.inr (Or.inr due))
      have stored := store_count_sound initial state thread newcount sound free orderly.1
        (Or.inr ⟨newcount, due⟩) (by omega)
      rw [zero, Nat.zero_add] at stored
      exact stored ((sound.fits thread).retaking newcount newcount due)
    · cases advanced
  | release thread =>
    split at advanced
    · rename_i place
      cases advanced
      exact released_sound sound (by simp [place]) (Or.inl ⟨rfl, rfl⟩)
    · rename_i place
      cases advanced
      exact released_sound sound (by simp [place]) (Or.inl ⟨rfl, rfl⟩)
    · rename_i resid place
      simp only [Option.ite_none_right_eq_some] at advanced
      obtain ⟨unlocked, advanced⟩ := advanced
      cases advanced
      exact released_sound sound (by simp [place])
        (Or.inr (Or.inl ⟨resid, place, rfl, unlocked, rfl⟩))
    · rename_i newcount resid place
      cases advanced
      exact released_sound sound (by simp [place])
        (Or.inr (Or.inr ⟨newcount, resid, place, rfl, rfl⟩))
    · cases advanced
  | sleep thread =>
    split at advanced
    · rename_i resid falling
      cases advanced
      exact sleep_sound sound falling
    · cases advanced
  | wake thread =>
    split at advanced
    · rename_i newcount resid wakes
      simp only [Option.ite_none_right_eq_some] at advanced
      obtain ⟨unlocked, advanced⟩ := advanced
      cases advanced
      exact cv_wake_sound sound wakes unlocked
    · cases advanced

/-- Sound books are exact, and a positive count with a sleeper means that the
woken reader is still due. -/
theorem sound_exact (sound : Sound initial state) : Exact initial state := by
  refine ⟨fun _ => sound.conserved, ?_⟩
  rintro ⟨thread, resid, sleeps⟩ positive
  have member := (sound.fits thread).sleeping.mpr ⟨resid, sleeps⟩
  rcases (sound.covered positive).none_stranded with unslept | ⟨_, woken, left, place⟩
  · simp [unslept] at member
  · exact ⟨woken, by simp [place, StillDue]⟩

/-- In every run in which no thread takes the lock during another's wakeup, and no
writer adds to a positive count while readers sleep, the books of the semaphore
are exact in every state reached. -/
theorem exact_in_orderly_runs [DecidableEq Thread] (initial : Nat) (state : State Thread)
    (reached : Reaches next Orderly (Initial initial) state) : Exact initial state := by
  have sound : Sound initial state := reached.invariant (initial_sound initial) (next_sound initial)
  exact sound_exact sound

/-- A semaphore at zero that two threads may use. -/
def atZero : State Bool where
  count := 0
  owner := none
  cvLock := none
  wchan := []
  pc := fun _ => .idle
  written := 0
  consumed := 0

theorem at_zero_initial : Initial 0 atZero :=
  ⟨rfl, by decide, rfl, rfl, rfl, fun _ => rfl, rfl, rfl⟩

/-- One thread reads and sleeps, and the other writes one count. -/
def handedOver : List (Action Bool) :=
  [.callRead true 1, .acquire true, .release true, .sleep true, .callWrite false 1,
    .acquire false, .release false, .wake false, .acquire false, .release false]

/-- A thread takes the lock of a semaphore at zero while the other is not in its wakeup. -/
def orderlyTest (state : State Bool) : Action Bool → Bool
  | .acquire thread => state.count == 0 && match state.pc !thread with
    | .writerWakes _ _ | .writerRetakes _ _ => false
    | _ => true
  | _ => true

theorem orderly_of_test (state : State Bool) (action : Action Bool)
    (passed : orderlyTest state action = true) : Orderly state action := by
  cases action with
  | acquire thread =>
    simp only [orderlyTest, Bool.and_eq_true, beq_iff_eq] at passed
    refine ⟨fun other differs wakes => ?_, fun _ _ _ positive => by omega⟩
    rw [Bool.eq_not_of_ne differs] at wakes
    cases place : state.pc !thread <;> simp_all [InWakeup]
  | _ => trivial

/-- The count waits for the woken reader. -/
theorem exact_when_handed_over :
    ∃ state, exec next atZero handedOver = some state ∧ state.count = 1 ∧
      state.pc true = .readerWoken 1 ∧ Exact 0 state := by
  exact ⟨_, rfl, rfl, rfl, exact_in_orderly_runs 0 _ (reaches_of_permitted orderly_of_test
    (.start _ at_zero_initial) (show Permits next (orderlyTest · · = true) atZero handedOver by
      decide) rfl)⟩

/-- The woken reader takes the lock before the writer has stored its count. -/
def sleepsAgain : List (Action Bool) :=
  [.callRead true 1, .acquire true, .release true, .sleep true, .callWrite false 1,
    .acquire false, .release false, .wake false, .acquire true, .release true, .sleep true,
    .acquire false, .release false]

/-- Two writers compute their counts before either has stored one. -/
def writtenTwice : List (Action Bool) :=
  [.callWrite true 1, .acquire true, .release true, .callWrite false 1, .acquire false,
    .release false, .wake true, .acquire true, .release true, .wake false, .acquire false,
    .release false]

/-- A reader sleeps on a count of one with nobody left to wake it, and one of two
written counts is lost. -/
theorem stranded_and_lost : (∃ state, exec next atZero sleepsAgain = some state ∧
      Reaches next Anything (Initial 0) state ∧ state.pc true = .readerSleeps 1 ∧
      state.pc false = .idle ∧ state.count = 1 ∧ ¬ Exact 0 state) ∧
    ∃ state, exec next atZero writtenTwice = some state ∧
      Reaches next Anything (Initial 0) state ∧ state.owner = none ∧ state.written = 2 ∧
      state.consumed = 0 ∧ state.count = 1 ∧ ¬ Exact 0 state := by
  constructor
  · refine ⟨_, rfl, reaches_of_exec (Initial 0) sleepsAgain at_zero_initial rfl,
      rfl, rfl, rfl, ?_⟩
    intro exactly
    obtain ⟨thread, due⟩ := exactly.2 ⟨true, 1, rfl⟩ (by decide)
    cases thread <;> exact due
  · refine ⟨_, rfl, reaches_of_exec (Initial 0) writtenTwice at_zero_initial rfl,
      rfl, rfl, rfl, rfl, ?_⟩
    intro exactly
    exact absurd (exactly.1 rfl) (by decide)

end Os161.Semfs
