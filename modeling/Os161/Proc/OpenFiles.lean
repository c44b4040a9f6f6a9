import Os161.Library.References
import Os161.Proc.FileTable
import Mathlib.Data.Fintype.Prod

/-!
# Reference counts of open files

Which slots of which processes refer to an open-file object, and whether its
`refcount` says so. A child that is still copying owns the slots it has copied;
a running process owns all of its table. The counts are right in the runs in
which opens get as far as a free slot and a vnode, a file is closed only while
one slot refers to it, new tables start out clear, and nobody interferes with a
child that copies: its parent leaves the slots alone that are still to be copied,
and no other child is started.
-/
namespace Os161.Proc.OpenFiles

open Os161.Library.Runs Os161.Library.References Os161.Proc.FileTable Function

variable {Thread Obj : Type}

/-- What the slots of all processes refer to. -/
def slots (state : State Thread Obj) (slot : Thread × Fin openMax) : Option Obj :=
  match state.phase slot.1 with
  | .running => state.words slot.1 slot.2
  | .starting _ copied => if slot.2 < copied then state.words slot.1 slot.2 else none
  | .absent | .exited => none

attribute [local simp] assign slots copySlot allocate create sysFork

/-- Every slot is empty or refers to an allocated object, the count of an object is
the number of slots that refer to it, and its vnode is open exactly while there
are such slots. -/
def Counted [Fintype Thread] [DecidableEq Obj] (state : State Thread Obj) : Prop :=
  (∀ slot file, slots state slot = some file → ∃ count, state.refcount file = some count) ∧
    (∀ file count, state.refcount file = some count → count = referring (slots state) file) ∧
    ∀ file, state.vnodeOpen file = true ↔ 0 < referring (slots state) file

/-- A close that gets past the `EBADF` test leaves the caller's slot empty. -/
def Empties [DecidableEq Thread] [DecidableEq Obj] (state : State Thread Obj) (thread : Thread)
    (fd : Nat) : Prop :=
  ∀ after, next state (.sysClose thread fd) = some after → after.words thread fd = none

/-- Tables start out clear, an open that has allocated an object gets a vnode for
it and a slot inside the table, and a close is of the only reference. No child has
yet to copy the slot that is opened or closed, and one child copies at a time. The
runs are of opens, closes and forks. -/
def Tidy (state : State Thread Obj) : FileTable.Action Thread Obj → Prop
  | .runprogram _ _ _ _ junk => ∀ fd, junk fd = none
  | .sysOpen thread opening => match opening with
    | .refused => True
    | .vfsFails _ => False
    | .succeeds _ => findFd (state.words thread) < openMax ∧
        ¬ Uncopied state thread (findFd (state.words thread))
  | .sysClose thread fd => fd < openMax ∧ ¬ Uncopied state thread fd ∧
      ∀ file, state.words thread fd = some file → state.refcount file = some 1
  | .sysFork _ _ _ => ∀ child parent copied, state.phase child ≠ .starting parent copied
  | .copySlot _ => True
  | .sysExit _ | .reuse _ _ => False

/-- The invariant of the tidy runs. -/
structure Sound [Fintype Thread] [DecidableEq Obj] (state : State Thread Obj) : Prop where
  balanced : Balanced (slots state) state.refcount
  vnodes : ∀ file, state.vnodeOpen file = (state.refcount file).isSome
  parents : ∀ child parent copied, state.phase child = .starting parent copied →
    state.phase parent = .running ∧ copied < openMax

theorem initial_sound [Fintype Thread] [DecidableEq Obj] (state : State Thread Obj)
    (initial : Initial state) : Sound state := by
  obtain ⟨absent, unallocated, closed, _⟩ := initial
  refine ⟨balanced_empty ?_ unallocated, ?_, ?_⟩
  · intro slot
    simp [absent]
  · intro file
    simp [closed, unallocated]
  · intro child parent copied starting
    simp [absent] at starting

variable {state : State Thread Obj} {thread parent child : Thread}

/-- Assigning a slot of a running thread changes that slot alone. -/
theorem slots_assign [DecidableEq Thread] (fd : Fin openMax) (reference : Option Obj)
    (running : state.phase thread = .running) :
    slots (assign state thread fd reference) = update (slots state) (thread, fd) reference := by
  funext ⟨other, index⟩
  obtain rfl | same := eq_or_ne other thread
  · by_cases here : index = fd
    · subst here
      simp [running]
    · have apart : (index : Nat) ≠ fd := fun equal => here (Fin.ext equal)
      simp [running, here, apart]
  · simp [same]

section

variable [Fintype Thread] [DecidableEq Thread] [DecidableEq Obj] (state : State Thread Obj)

/-- The first reference of a new open file goes into an empty slot. -/
theorem allocate_sound (fd : Fin openMax) (file : Obj) (owned : Bool) (sound : Sound state)
    (running : state.phase thread = .running) (empty : state.words thread fd = none)
    (unallocated : state.refcount file = none) :
    Sound (allocate (assign state thread fd (some file)) file owned) := by
  refine ⟨?_, ?_, sound.parents⟩
  · have unused : slots state (thread, fd) = none := by simp [running, empty]
    have placed := slots_assign fd (some file) running
    exact placed ▸ sound.balanced.first (thread, fd) file unused unallocated
  · intro other
    by_cases same : other = file
    · simp [same]
    · simpa [same] using sound.vnodes other

/-- The three standard descriptors of a new program go into a clear table. -/
theorem runprogram_sound {fin fout ferr : Obj} (junk : Nat → Option Obj) (sound : Sound state)
    (absent : state.phase thread = .absent)
    (unallocated : state.refcount fin = none ∧ state.refcount fout = none ∧
      state.refcount ferr = none) (distinct : [fin, fout, ferr].Nodup)
    (clear : ∀ fd, junk fd = none) : Sound (runprogram state thread fin fout ferr junk) := by
  obtain ⟨unallocated_in, unallocated_out, unallocated_err⟩ := unallocated
  simp only [List.nodup_cons, List.mem_cons, List.not_mem_nil, or_false, not_or] at distinct
  obtain ⟨⟨in_out, in_err⟩, out_err, _⟩ := distinct
  have created : Sound (create state thread .running junk) := by
    have unchanged : slots (create state thread .running junk) = slots state := by
      funext ⟨other, index⟩
      by_cases same : other = thread
      · simp [same, absent, clear]
      · simp [same]
    refine ⟨by rw [unchanged]; exact sound.balanced, sound.vnodes, ?_⟩
    intro child parent copied starting
    by_cases same : child = thread
    · simp [same] at starting
    · have before := sound.parents child parent copied (by simpa [same] using starting)
      by_cases own : parent = thread
      · simp [own, absent] at before
      · simpa [own] using before
  have first := allocate_sound _ ⟨0, by decide⟩ fin false created (update_self _ _ _)
    (by simp [clear]) unallocated_in
  have second := allocate_sound _ ⟨1, by decide⟩ fout false first (update_self _ _ _) (by simp [clear])
    (by simpa [Ne.symm in_out] using unallocated_out)
  exact allocate_sound _ ⟨2, by decide⟩ ferr false second (update_self _ _ _) (by simp [clear])
    (by simpa [Ne.symm in_err, Ne.symm out_err] using unallocated_err)

/-- A tidy close either finds the slot empty or ends the last reference. -/
theorem close_sound {after : State Thread Obj} {fd : Nat} (sound : Sound state)
    (running : state.phase thread = .running) (tidy : Tidy state (.sysClose thread fd))
    (advanced : sysClose state thread fd = some after) :
    Sound after ∧ after.words thread fd = none := by
  obtain ⟨inside, _, single⟩ := tidy
  unfold sysClose at advanced
  cases refers : state.words thread fd with
  | none =>
    simp only [refers, Option.some.injEq] at advanced
    exact ⟨advanced ▸ sound, advanced ▸ refers⟩
  | some file =>
    have counted := single file refers
    simp only [refers, counted, Int.sub_self, if_true] at advanced
    obtain ⟨_, rfl⟩ := guard_some.mp advanced
    refine ⟨⟨?_, ?_, sound.parents⟩, by simp⟩
    · have holds : slots state (thread, ⟨fd, inside⟩) = some file := by
        simp [running, refers]
      have emptied := slots_assign ⟨fd, inside⟩ none running
      exact emptied ▸ sound.balanced.last (thread, ⟨fd, inside⟩) file holds counted
    · intro other
      by_cases same : other = file
      · simp [same]
      · simpa [same] using sound.vnodes other

end

/-- Copying a slot adds that slot of the child to the slots in use. -/
theorem slots_copy_slot [DecidableEq Thread] [DecidableEq Obj] {copied : Nat}
    (inside : copied < openMax) (starting : state.phase child = .starting parent copied) :
    slots (copySlot state child parent copied) =
      update (slots state) (child, ⟨copied, inside⟩) (state.words parent copied) := by
  funext ⟨other, index⟩
  obtain rfl | same := eq_or_ne other child
  · by_cases here : index = ⟨copied, inside⟩
    · subst here
      by_cases last : copied + 1 = openMax <;> simp [last]
    have apart : (index : Nat) ≠ copied := fun equal => here (Fin.ext equal)
    by_cases last : copied + 1 = openMax
    · have below : (index : Nat) < copied := by omega
      simp [last, here, apart, starting, below]
    · have same_side : (index : Nat) < copied + 1 ↔ (index : Nat) < copied := by omega
      simp [last, here, apart, starting, same_side]
  · simp [same]

section

variable [Fintype Thread] [DecidableEq Thread] [DecidableEq Obj] (state : State Thread Obj)

/-- A child's copy of a slot counts one more reference, to what the running parent
refers to. -/
theorem copy_slot_sound {copied : Nat} (sound : Sound state)
    (starting : state.phase child = .starting parent copied) :
    Sound (copySlot state child parent copied) := by
  obtain ⟨running, inside⟩ := sound.parents child parent copied starting
  have moved := slots_copy_slot inside starting
  have unused : slots state (child, ⟨copied, inside⟩) = none := by
    simp [starting]
  refine ⟨?_, ?_, ?_⟩
  · rw [moved]
    cases refers : state.words parent copied with
    | none =>
      have same := update_eq_self (child, ⟨copied, inside⟩) (slots state)
      rw [unused] at same
      simpa [refers, same] using sound.balanced
    | some file =>
      have source : slots state (parent, ⟨copied, inside⟩) = some file := by
        simp [running, refers]
      obtain ⟨count, allocated⟩ := sound.balanced.allocated _ file source
      simpa [refers, allocated] using
        sound.balanced.share (child, ⟨copied, inside⟩) file unused allocated
  · intro file
    have before := sound.vnodes file
    cases refers : state.words parent copied with
    | none => simpa [refers] using before
    | some other =>
      obtain rfl | same := eq_or_ne file other
      · simpa [refers] using before
      · simpa [refers, same] using before
  · intro other source number begins
    rcases copy_slot_starting begins with ⟨rfl, rfl, rfl, last⟩ | ⟨_, began⟩
    · have differs : source ≠ other := by
        rintro rfl
        simp [starting] at running
      exact ⟨by simpa [differs] using running, by omega⟩
    · have before := sound.parents other source number began
      have apart : source ≠ child := by
        rintro rfl
        simp [starting] at before
      simpa [apart] using before

/-- A fork starts a child that refers to nothing yet. -/
theorem fork_sound (junk : Nat → Option Obj) (sound : Sound state)
    (running : state.phase parent = .running) (absent : state.phase child = .absent) :
    Sound (sysFork state parent child junk) := by
  have unchanged : slots (sysFork state parent child junk) = slots state := by
    funext ⟨other, index⟩
    by_cases same : other = child
    · simp [same, absent]
    · simp [same]
  refine ⟨by rw [unchanged]; exact sound.balanced, sound.vnodes, ?_⟩
  intro other source copied starting
  by_cases same : other = child
  · simp only [same, sysFork, create, update_self, Phase.starting.injEq] at starting
    obtain ⟨rfl, rfl⟩ := starting
    have differs : parent ≠ child := by
      rintro rfl
      simp [running] at absent
    exact ⟨by simpa [differs] using running, by decide⟩
  · have before := sound.parents other source copied (by simpa [same] using starting)
    have apart : source ≠ child := by
      rintro rfl
      simp [absent] at before
    simpa [apart] using before

/-- Every call that is tidy keeps the invariant. One case per call. -/
theorem next_sound (action : FileTable.Action Thread Obj) (after : State Thread Obj)
    (sound : Sound state) (tidy : Tidy state action) (advanced : next state action = some after) :
    Sound after := by
  cases action with simp only [next, Option.ite_none_right_eq_some, Option.some.injEq] at advanced
  | runprogram thread fin fout ferr junk =>
    obtain ⟨⟨absent, free_in, free_out, free_err, distinct⟩, rfl⟩ := advanced
    exact runprogram_sound state junk sound absent ⟨free_in, free_out, free_err⟩ distinct tidy
  | sysOpen thread opening =>
    obtain ⟨running, advanced⟩ := advanced
    cases opening with
    | refused =>
      cases advanced
      exact sound
    | vfsFails file => exact tidy.elim
    | succeeds file =>
      simp only [sysOpen, guard_some] at advanced
      obtain ⟨unallocated, rfl⟩ := advanced
      rcases find_fd_cases (state.words thread) with ⟨inside, empty⟩ | ⟨full, _⟩
      · exact allocate_sound state ⟨_, inside⟩ file true sound running empty unallocated
      · exact absurd full (Nat.ne_of_lt tidy.1)
  | sysClose thread fd =>
    exact (close_sound state sound advanced.1 tidy advanced.2).1
  | sysFork parent child junk =>
    obtain ⟨⟨running, absent⟩, rfl⟩ := advanced
    exact fork_sound state junk sound running absent
  | copySlot child =>
    split at advanced
    · rename_i parent copied starting
      cases advanced
      exact copy_slot_sound state sound starting
    · cases advanced
  | sysExit thread | reuse thread junk => exact tidy.elim

end

theorem sound_counted [Fintype Thread] [DecidableEq Obj] (sound : Sound state) : Counted state := by
  refine ⟨sound.balanced.allocated, ?_, ?_⟩
  · intro file count allocated
    have counts := sound.balanced file
    rw [allocated] at counts
    exact counts.1
  · intro file
    have counts := sound.balanced file
    rw [sound.vnodes file]
    cases found : state.refcount file with
    | none =>
      rw [found] at counts
      simp [counts]
    | some count =>
      rw [found] at counts
      simpa using counts.2

/-- In every tidy run the counts are right in every state reached, and the closes
taken there empty their slots. -/
theorem counted_in_tidy_runs [Fintype Thread] [DecidableEq Thread] [DecidableEq Obj]
    (state : State Thread Obj) (reached : Reaches next Tidy Initial state) :
    Counted state ∧ ∀ thread fd, Tidy state (.sysClose thread fd) → Empties state thread fd := by
  have sound : Sound state := reached.invariant initial_sound next_sound
  refine ⟨sound_counted sound, ?_⟩
  intro thread fd tidy after advanced
  simp only [next, Option.ite_none_right_eq_some] at advanced
  exact (close_sound state sound advanced.1 tidy advanced.2).2

/-- A program opens a file and forks, and the child copies one slot. -/
def shared : List (FileTable.Action Bool Nat) :=
  [.runprogram true 0 1 2 (fun _ => none), .sysOpen true (.succeeds 3),
    .sysFork true false (fun _ => none), .copySlot false]

/-- The copied slot is counted. -/
theorem counted_when_shared :
    ∃ state, exec next booted shared = some state ∧ state.refcount 0 = some 2 ∧
      Counted state := by
  refine ⟨_, rfl, rfl, (counted_in_tidy_runs _ (@reaches_of_permitted _ _ _ _ Tidy _ _ _
    (fun _ _ => id) shared (.start _ booted_initial) ?_ rfl)).1⟩
  refine ⟨fun _ => rfl, ?_⟩
  rintro _ ⟨⟩
  refine ⟨⟨show findFd _ < openMax by decide, ?_⟩, ?_⟩
  · rintro ⟨child, copied, starting, _⟩
    cases child <;> cases starting
  rintro _ ⟨⟩
  refine ⟨?_, ?_⟩
  · intro child parent copied starting
    cases child <;> cases starting
  rintro _ ⟨⟩
  refine ⟨trivial, ?_⟩
  rintro _ ⟨⟩
  trivial

/-- A program with a clear table opens a file that does not exist. -/
def failedOpen : List (FileTable.Action Bool Nat) :=
  [.runprogram true 0 1 2 (fun _ => none), .sysOpen true (.vfsFails 3)]

/-- The failed open leaves slot three referring to an object that is free. -/
theorem dangling_after_failed_open :
    ∃ state, exec next booted failedOpen = some state ∧ Reaches next Anything Initial state ∧
      slots state (true, 3) = some 3 ∧ state.refcount 3 = none ∧ ¬ Counted state := by
  refine ⟨_, rfl, reaches_of_exec Initial failedOpen booted_initial rfl, rfl, rfl, ?_⟩
  intro counted
  obtain ⟨count, allocated⟩ := counted.1 (true, 3) 3 rfl
  cases allocated

end Os161.Proc.OpenFiles
