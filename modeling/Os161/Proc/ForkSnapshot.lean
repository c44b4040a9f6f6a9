import Os161.Proc.FileTable

/-!
# The file table a forked child starts with

`sys_fork` gives the child a pointer to the parent's table and returns; the child
follows the pointer later, one slot at a time. It therefore enters user mode with
the parent's table as it was at fork if nothing touches the slots it has yet to
copy. When the parent closes a file first, or exits and its structure is reused,
the child gets something else.
-/
namespace Os161.Proc.ForkSnapshot

open Os161.Library.Runs Os161.Proc.FileTable Function

variable {Thread Obj : Type}

/-- Every child that has entered user mode did so with the table its parent had
when it called fork. -/
def Faithful (state : State Thread Obj) : Prop :=
  ∀ child table, state.entered child = some table →
    ∀ fd, fd < openMax → table fd = state.snapshot child fd

/-- No parent opens a file into a slot that one of its children has yet to copy, or
closes the last reference there, and the structure of an exited parent is not
reused before its children have copied all of it. -/
def Untouched (state : State Thread Obj) : FileTable.Action Thread Obj → Prop
  | .sysOpen thread opening => match opening with
    | .refused => True
    | .vfsFails _ | .succeeds _ => ¬ Uncopied state thread (findFd (state.words thread))
  | .sysClose thread fd => ∀ file, state.words thread fd = some file →
      state.refcount file = some 1 → ¬ Uncopied state thread fd
  | .reuse thread _ => ∀ fd, ¬ Uncopied state thread fd
  | _ => True

/-- A child in start-up has copied the parent's table as it was at fork, and what
it has not copied is still there to be copied. -/
structure Copying (state : State Thread Obj) (child parent : Thread) (copied : Nat) : Prop where
  filled : ∀ fd, fd < copied → state.words child fd = state.snapshot child fd
  pending : ∀ fd, copied ≤ fd → fd < openMax → state.words parent fd = state.snapshot child fd
  early : state.entered child = none ∧ copied < openMax
  alive : state.phase parent = .running ∨ state.phase parent = .exited

/-- The invariant. -/
structure Sound (state : State Thread Obj) : Prop where
  starting : ∀ child parent copied, state.phase child = .starting parent copied →
    Copying state child parent copied
  unborn : ∀ child, state.phase child = .absent → state.entered child = none
  entered : Faithful state

attribute [local simp] copySlot assign runprogram allocate create sysFork

theorem initial_sound (state : State Thread Obj) (initial : Initial state) : Sound state := by
  obtain ⟨absent, _, _, unentered⟩ := initial
  constructor <;> simp [absent, unentered, Faithful]

/-- What a step other than a fork or a copy may do to the start-ups under way:
nothing. Children keep their place and their table, parents keep the slots that
have yet to be copied, and the record of forks stays as it is. -/
structure Bystander (state after : State Thread Obj) : Prop where
  entered : after.entered = state.entered
  snapshot : after.snapshot = state.snapshot
  starting : ∀ child parent copied, after.phase child = .starting parent copied →
    state.phase child = .starting parent copied ∧ after.words child = state.words child
  absent : ∀ child, after.phase child = .absent → state.phase child = .absent
  parents : ∀ parent, state.phase parent = .running ∨ state.phase parent = .exited →
    after.phase parent = .running ∨ after.phase parent = .exited
  uncopied : ∀ parent fd, Uncopied state parent fd → after.words parent fd = state.words parent fd

variable {state after : State Thread Obj} {thread other : Thread}

/-- A step that leaves the start-ups under way alone keeps the invariant. -/
theorem bystander_sound {after : State Thread Obj} (sound : Sound state)
    (bystander : Bystander state after) : Sound after := by
  refine ⟨fun child parent copied begins => ?_, fun child unborn => ?_, fun child table ends => ?_⟩
  · obtain ⟨began, same_words⟩ := bystander.starting child parent copied begins
    have before := sound.starting child parent copied began
    constructor
    · rw [same_words, bystander.snapshot]
      exact before.filled
    · intro fd above inside
      rw [bystander.uncopied parent fd ⟨child, copied, began, above, inside⟩, bystander.snapshot]
      exact before.pending fd above inside
    · rw [bystander.entered]
      exact before.early
    · exact bystander.parents parent before.alive
  · rw [bystander.entered]
    exact sound.unborn child (bystander.absent child unborn)
  · rw [bystander.snapshot]
    exact sound.entered child table (bystander.entered ▸ ends)

/-- A step that leaves phases, tables and records alone is a bystander. -/
theorem idle_bystander (same_entered : after.entered = state.entered)
    (same_snapshot : after.snapshot = state.snapshot) (same_phase : after.phase = state.phase)
    (same_words : after.words = state.words) : Bystander state after where
  entered := same_entered
  snapshot := same_snapshot
  starting := fun child parent copied begins => ⟨same_phase ▸ begins, by rw [same_words]⟩
  absent := fun child unborn => same_phase ▸ unborn
  parents := fun parent alive => by rw [same_phase]; exact alive
  uncopied := fun parent fd _ => by rw [same_words]

/-- Assigning a slot of a running thread that nobody has yet to copy is a bystander
to every start-up. -/
theorem assign_bystander [DecidableEq Thread] {fd : Nat} (reference : Option Obj)
    (running : state.phase thread = .running) (untouched : ¬ Uncopied state thread fd) :
    Bystander state (assign state thread fd reference) where
  entered := rfl
  snapshot := rfl
  starting := by
    intro child parent copied begins
    have began : state.phase child = .starting parent copied := begins
    have differs : child ≠ thread := by
      rintro rfl
      simp [running] at began
    exact ⟨began, by simp [differs]⟩
  absent := fun child unborn => unborn
  parents := fun parent alive => alive
  uncopied := by
    intro parent index waits
    obtain rfl | same := eq_or_ne parent thread
    · have apart : index ≠ fd := by
        rintro rfl
        exact untouched waits
      simp [apart]
    · simp [same]

theorem open_bystander [DecidableEq Thread] [DecidableEq Obj] {opening : Opening Obj}
    (running : state.phase thread = .running)
    (untouched : Untouched state (.sysOpen thread opening))
    (advanced : sysOpen state thread opening = some after) : Bystander state after := by
  cases opening with
  | refused =>
    cases advanced
    exact idle_bystander rfl rfl rfl rfl
  | vfsFails file =>
    simp only [sysOpen, guard_some] at advanced
    obtain ⟨_, rfl⟩ := advanced
    exact assign_bystander _ running untouched
  | succeeds file =>
    simp only [sysOpen, guard_some] at advanced
    obtain ⟨_, rfl⟩ := advanced
    have assigned := assign_bystander (some file) running untouched
    exact { assigned with }

theorem close_bystander [DecidableEq Thread] [DecidableEq Obj] {fd : Nat}
    (running : state.phase thread = .running) (untouched : Untouched state (.sysClose thread fd))
    (advanced : sysClose state thread fd = some after) : Bystander state after := by
  unfold sysClose at advanced
  split at advanced
  · cases advanced
    exact idle_bystander rfl rfl rfl rfl
  rename_i file refers
  split at advanced
  · cases advanced
  rename_i count counted
  split at advanced
  · rename_i last
    have single : state.refcount file = some 1 := by
      rw [counted, show count = 1 by omega]
    obtain ⟨_, rfl⟩ := guard_some.mp advanced
    have assigned := assign_bystander none running (untouched file refers single)
    exact { assigned with }
  · cases advanced
    exact idle_bystander rfl rfl rfl rfl

/-- A fork starts a child that has everything still to copy. -/
theorem fork_sound [DecidableEq Thread] {parent child : Thread} (junk : Nat → Option Obj)
    (sound : Sound state) (running : state.phase parent = .running)
    (absent : state.phase child = .absent) :
    Sound (sysFork state parent child junk) := by
  have apart : parent ≠ child := by
    rintro rfl
    simp [running] at absent
  refine ⟨fun other source copied begins => ?_, fun other unborn => ?_,
    fun other table ends fd inside => ?_⟩
  · obtain rfl | same := eq_or_ne other child
    · simp only [sysFork, create, update_self, Phase.starting.injEq] at begins
      obtain ⟨rfl, rfl⟩ := begins
      exact ⟨fun fd below => absurd below (Nat.not_lt_zero fd), by simp [apart],
        ⟨sound.unborn other absent, by decide⟩, Or.inl (by simpa [apart] using running)⟩
    · have before := sound.starting other source copied (by simpa [same] using begins)
      have differs : source ≠ child := by
        rintro rfl
        simpa [absent] using before.alive
      exact ⟨by simpa [same] using before.filled, by simpa [same, differs] using before.pending,
        before.early, by simpa [differs] using before.alive⟩
  · by_cases same : other = child
    · simp [same] at unborn
    · exact sound.unborn other (by simpa [same] using unborn)
  · by_cases same : other = child
    · have unentered := sound.unborn child absent
      simp [same, unentered] at ends
    · simpa [same] using sound.entered other table ends fd inside

section copying

variable [DecidableEq Thread] [DecidableEq Obj] {state : State Thread Obj} {child parent : Thread}
  {copied : Nat}

theorem copy_slot_entered_other (differs : other ≠ child) :
    (copySlot state child parent copied).entered other = state.entered other := by
  by_cases last : copied + 1 = openMax
  · simp [last, differs]
  · simp [last]

theorem copy_slot_words_other (differs : other ≠ child) :
    (copySlot state child parent copied).words other = state.words other := by
  simp [differs]

variable (sound : Sound state) (starting : state.phase child = .starting parent copied)

include sound starting

/-- What was copied, this slot included, is what the parent had at fork. -/
theorem copy_slot_filled (fd : Nat) (below : fd < copied + 1) :
    (copySlot state child parent copied).words child fd = state.snapshot child fd := by
  have before := sound.starting child parent copied starting
  obtain rfl | here := eq_or_ne fd copied
  · simpa using before.pending fd (Nat.le_refl fd) before.early.2
  · simpa [here] using before.filled fd (by omega)

omit [DecidableEq Thread] [DecidableEq Obj] in
theorem parent_not_starting {source : Thread} {number : Nat}
    (began : state.phase other = .starting source number) : source ≠ child := by
  rintro rfl
  simpa [starting] using (sound.starting other source number began).alive

/-- A copied slot is the parent's slot as it was at fork. -/
theorem copy_slot_sound : Sound (copySlot state child parent copied) := by
  have before := sound.starting child parent copied starting
  have filled := copy_slot_filled sound starting
  refine ⟨?_, ?_, ?_⟩
  · intro other source number begins
    rcases copy_slot_starting begins with ⟨rfl, rfl, rfl, last⟩ | ⟨differs, began⟩
    · have apart := parent_not_starting sound starting starting
      refine ⟨filled, fun fd above bound => ?_, ⟨by simpa [last] using before.early.1, ?_⟩, ?_⟩
      · rw [copy_slot_words_other apart]
        exact before.pending fd (by omega) bound
      · have := before.early.2
        omega
      · simpa [apart] using before.alive
    · have others := sound.starting other source number began
      have apart := parent_not_starting sound starting began
      constructor
      · rw [copy_slot_words_other differs]
        exact others.filled
      · rw [copy_slot_words_other apart]
        exact others.pending
      · rw [copy_slot_entered_other differs]
        exact others.early
      · simpa [apart] using others.alive
  · intro other unborn
    obtain rfl | same := eq_or_ne other child
    · by_cases last : copied + 1 = openMax <;> simp [last] at unborn
    · rw [copy_slot_entered_other same]
      exact sound.unborn other (by simpa [same] using unborn)
  · intro other table ends fd bound
    obtain rfl | same := eq_or_ne other child
    · by_cases last : copied + 1 = openMax
      · have table_is : (copySlot state other parent copied).words other = table := by
          simpa [last] using ends
        rw [← table_is]
        exact filled fd (by omega)
      · simp [last, before.early.1] at ends
    · rw [copy_slot_entered_other same] at ends
      exact sound.entered other table ends fd bound

end copying

/-- Every step that leaves the uncopied slots alone keeps the invariant. -/
theorem next_sound [DecidableEq Thread] [DecidableEq Obj] (state : State Thread Obj)
    (action : FileTable.Action Thread Obj) (after : State Thread Obj) (sound : Sound state)
    (untouched : Untouched state action) (advanced : next state action = some after) :
    Sound after := by
  cases action with simp only [next, Option.some.injEq, Option.ite_none_right_eq_some] at advanced
  | runprogram thread fin fout ferr junk =>
    obtain ⟨⟨absent, _⟩, rfl⟩ := advanced
    refine bystander_sound sound ⟨rfl, rfl, ?_, ?_, ?_, ?_⟩
    · intro child parent copied starting
      by_cases same : child = thread
      · simp [same] at starting
      · refine ⟨by simpa [same] using starting, ?_⟩
        simp [same]
    · intro child unborn
      by_cases same : child = thread
      · exact same ▸ absent
      · simpa [same] using unborn
    · intro parent alive
      by_cases same : parent = thread
      · simp [same, absent] at alive
      · simpa [same] using alive
    · rintro parent fd ⟨child, copied, starting, _⟩
      have same : parent ≠ thread := by
        rintro rfl
        simpa [absent] using (sound.starting child parent copied starting).alive
      simp [same]
  | sysOpen thread opening =>
    exact bystander_sound sound (open_bystander advanced.1 untouched advanced.2)
  | sysClose thread fd =>
    exact bystander_sound sound (close_bystander advanced.1 untouched advanced.2)
  | sysFork parent child junk =>
    obtain ⟨⟨running, absent⟩, rfl⟩ := advanced
    exact fork_sound junk sound running absent
  | copySlot child =>
    split at advanced
    · rename_i parent copied starting
      cases advanced
      exact copy_slot_sound sound starting
    · cases advanced
  | sysExit thread =>
    obtain ⟨running, rfl⟩ := advanced
    refine bystander_sound sound ⟨rfl, rfl, ?_, ?_, ?_, fun _ _ _ => rfl⟩
    · intro child parent copied starting
      by_cases same : child = thread
      · simp [same] at starting
      · exact ⟨by simpa [same] using starting, rfl⟩
    · intro child unborn
      by_cases same : child = thread
      · simp [same] at unborn
      · simpa [same] using unborn
    · intro parent alive
      by_cases same : parent = thread
      · exact Or.inr (by simp [same])
      · simpa [same] using alive
  | reuse thread junk =>
    obtain ⟨exited, rfl⟩ := advanced
    refine bystander_sound sound
      ⟨rfl, rfl, ?_, fun child unborn => unborn, fun parent alive => alive, ?_⟩
    · intro child parent copied starting
      refine ⟨starting, ?_⟩
      have differs : child ≠ thread := by
        rintro rfl
        have began : state.phase child = .starting parent copied := starting
        simp [exited] at began
      simp [differs]
    · intro parent fd waits
      have differs : parent ≠ thread := by
        rintro rfl
        exact untouched fd waits
      simp [differs]

/-- In every run in which no slot that a child has yet to copy is changed, every
child enters user mode with the table of its fork. -/
theorem faithful_while_untouched [DecidableEq Thread] [DecidableEq Obj]
    (state : State Thread Obj) (reached : Reaches next Untouched Initial state) :
    Faithful state := by
  have sound : Sound state := reached.invariant initial_sound next_sound
  exact sound.entered

/-- A program forks. -/
def forks : List (FileTable.Action Bool Nat) :=
  [.runprogram true 0 1 2 (fun _ => none), .sysFork true false (fun _ => none)]

/-- A program opens a file, which is descriptor 3, forks and closes the file. -/
def forksAndCloses : List (FileTable.Action Bool Nat) :=
  [.runprogram true 0 1 2 (fun _ => none), .sysOpen true (.succeeds 3),
    .sysFork true false (fun _ => none), .sysClose true 3]

/-- The start-up of the child. -/
def startUp : List (FileTable.Action Bool Nat) :=
  List.replicate (127 + 1) (.copySlot false)

/-- Actions that change no table another thread copies. -/
def harmless : FileTable.Action Bool Nat → Bool
  | .runprogram _ _ _ _ _ | .sysFork _ _ _ | .copySlot _ => true
  | _ => false

theorem untouched_of_harmless (state : State Bool Nat) (action : FileTable.Action Bool Nat)
    (passed : harmless action = true) : Untouched state action := by
  cases action with
  | runprogram _ _ _ _ _ | sysFork _ _ _ | copySlot _ => trivial
  | sysOpen _ _ | sysClose _ _ | sysExit _ | reuse _ _ => cases passed

/-- A child that starts up while its parent does nothing has its parent's standard
input. -/
theorem faithful_when_undisturbed :
    ∃ state table, Reaches next Untouched Initial state ∧
      state.entered false = some table ∧ table 0 = some 0 ∧ Faithful state := by
  obtain ⟨state, evaluated, table, ends, copied⟩ : ∃ state ∈ exec next booted
      (forks ++ startUp), ∃ table ∈ state.entered false, table 0 = some 0 := by
    decide +kernel
  have reached : Reaches next Untouched Initial state :=
    reaches_of_permitted untouched_of_harmless (.start booted booted_initial) (by decide +kernel)
      evaluated
  exact ⟨state, table, reached, ends, copied, faithful_while_untouched state reached⟩

/-- The parent closes its file before the child has copied the slot, and the child enters user
mode without it. -/
theorem unfaithful_after_close :
    ∃ state table, exec next booted (forksAndCloses ++ startUp) = some state ∧
      Reaches next Anything Initial state ∧ state.entered false = some table ∧
      state.snapshot false 3 = some 3 ∧ table 3 = none ∧ ¬ Faithful state := by
  obtain ⟨state, evaluated, had, table, ends, missing⟩ : ∃ state ∈ exec next booted
      (forksAndCloses ++ startUp), state.snapshot false 3 = some 3 ∧
      ∃ table ∈ state.entered false, table 3 = none := by
    decide +kernel
  refine ⟨state, table, evaluated, reaches_of_exec Initial _ booted_initial evaluated, ends, had,
    missing, ?_⟩
  intro faithful
  have same := faithful false table ends 3 (by decide)
  rw [missing, had] at same
  cases same

end Os161.Proc.ForkSnapshot
