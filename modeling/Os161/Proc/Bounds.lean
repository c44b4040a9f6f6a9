import Os161.Proc.Calls

/-!
# Slots of the kernel tables a call uses

No call checks the descriptor or the pid it is given before it indexes a table
with it, and `sys_open` stores into the slot its search ends at even if that is
the one after the table. The record of uses only grows, so what a whole call uses
follows from what its parts add.
-/
namespace Os161.Proc.Calls

open Os161.Library Os161.Library.Program
open Os161.Proc.FileTable (openMax)
open Os161.Proc.ProcTable (pidMax scan)

variable {Value Result : Type} {kernel : Kernel} {uses : Touch → Prop}

/-- The slots used when a call ends, however it ends. -/
def touchedBy : Outcome Halted Int32 Kernel Value → List Touch
  | .stop halted => halted.touched
  | .fail _ after | .done _ after => after.touched

/-- The slot is one of its table. -/
def Touch.Inside : Touch → Prop
  | .file index => 0 ≤ index ∧ index < openMax
  | .process index => 0 ≤ index ∧ index < pidMax

/-- The slot a call is asked to use by its argument. -/
def Syscall.argument : Syscall → Option Touch
  | .sysRead fd _ _ _ | .sysWrite fd _ _ _ | .sysClose fd _ => some (.file fd.toInt)
  | .sysWaitpid pid _ => some (.process pid.toInt)
  | .sysOpen _ _ _ | .sysFork _ | .runprogram _ => none

/-- The call returns an error. -/
def Refused (outcome : Outcome Halted Int32 Kernel Value) : Prop :=
  ∃ error after, outcome = .fail error after

/-- A kernel in which no use has been recorded yet. -/
def unrecorded (kernel : Kernel) : Kernel :=
  { kernel with touched := [] }

/-- The call uses slots of the tables only, and is refused if its argument is none
of them. -/
def Confined (kernel : Kernel) (call : Syscall) : Prop :=
  (∀ used ∈ touchedBy (call.program (unrecorded kernel)), used.Inside) ∧
    ∀ slot, call.argument = some slot → ¬ slot.Inside → Refused (call.program (unrecorded kernel))

/-- `sys_open` gets as far as the search for a descriptor. -/
def Searches (filename : Pointer) (flags : Int32) (opening : Opening) : Prop :=
  filename ≠ null ∧
    ¬ (accessMode flags ≠ oRdonly ∧ accessMode flags ≠ oWronly ∧ accessMode flags ≠ oRdwr) ∧
    opening.name ≠ null ∧ opening.statbuf ≠ null ∧ opening.newfdesc ≠ null

/-- What a call has to be given: a descriptor or a pid of the tables, unless
`sys_write` is given no buffer, and a free slot for `sys_open`. -/
def InTables (kernel : Kernel) : Syscall → Prop
  | .sysOpen filename flags opening =>
    Searches filename flags opening → ∃ fd : Nat, fd < openMax ∧ kernel.fdtable fd = null
  | .sysRead fd _ _ _ => (Touch.file fd.toInt).Inside
  | .sysWrite fd buf _ _ => buf ≠ null → (Touch.file fd.toInt).Inside
  | .sysClose fd _ => (Touch.file fd.toInt).Inside
  | .sysWaitpid pid _ => (Touch.process pid.toInt).Inside
  | .sysFork _ | .runprogram _ => True

/-- A program adds only uses of some kind to the record. -/
def Adds (uses : Touch → Prop) (program : Call Value) : Prop :=
  ∀ kernel, ∃ touches, touchedBy (program kernel) = touches ++ kernel.touched ∧
    ∀ used ∈ touches, uses used

/-- The uses of one slot. -/
def UseOf (slot : Touch) (used : Touch) : Prop :=
  used = slot

theorem adds_nothing {program : Call Value}
    (unchanged : ∀ kernel, touchedBy (program kernel) = kernel.touched) : Adds uses program := by
  intro kernel
  exact ⟨[], unchanged kernel, by simp⟩

theorem adds_one {program : Call Value} {slot : Touch} (allowed : uses slot)
    (adds : ∀ kernel, touchedBy (program kernel) = slot :: kernel.touched) : Adds uses program := by
  intro kernel
  exact ⟨[slot], adds kernel, by simpa using allowed⟩

/-- A sequence adds what its parts add. The second part follows a value the first
one returned. -/
theorem Adds.bind_returned {first : Call Value} {second : Value → Call Result}
    (before : Adds uses first)
    (after : ∀ kernel value middle, first kernel = .done value middle →
      Adds uses (second value)) : Adds uses (first >>= second) := by
  intro kernel
  obtain ⟨earlier, touchedFirst, usesFirst⟩ := before kernel
  show ∃ touches, touchedBy (andThen first second kernel) = touches ++ kernel.touched ∧ _
  unfold andThen
  cases ended : first kernel with
  | stop halted | fail error middle =>
    rw [ended] at touchedFirst
    exact ⟨earlier, touchedFirst, usesFirst⟩
  | done value middle =>
    rw [ended] at touchedFirst
    obtain ⟨later, touchedSecond, usesSecond⟩ := after kernel value middle ended middle
    refine ⟨later ++ earlier, ?_, ?_⟩
    · rw [List.append_assoc, ← touchedFirst]
      exact touchedSecond
    · intro used member
      rcases List.mem_append.mp member with fromSecond | fromFirst
      · exact usesSecond used fromSecond
      · exact usesFirst used fromFirst

theorem Adds.bind {first : Call Value} {second : Value → Call Result} (before : Adds uses first)
    (after : ∀ value, Adds uses (second value)) : Adds uses (first >>= second) :=
  before.bind_returned fun _ value _ _ => after value

theorem adds_pure {value : Value} : Adds uses (pure value : Call Value) :=
  adds_nothing fun _ => rfl

theorem adds_inspect {look : Kernel → Value} : Adds uses (inspect look : Call Value) :=
  adds_nothing fun _ => rfl

theorem adds_change {update : Kernel → Kernel}
    (unchanged : ∀ kernel, (update kernel).touched = kernel.touched) :
    Adds uses (change update : Call PUnit) :=
  adds_nothing unchanged

theorem adds_halt {why : Halt} : Adds uses (halt why : Call Value) :=
  adds_nothing fun _ => rfl

variable {fd : Int} {condition : Prop} {lock : Pointer}

theorem adds_require [Decidable condition] {why : Halt} : Adds uses (require condition why) := by
  unfold require
  split
  · exact adds_pure
  · exact adds_halt

theorem adds_refuse [Decidable condition] {error : Int32} : Adds uses (refuse condition error) := by
  unfold refuse onlyIf
  split
  · exact adds_nothing fun _ => rfl
  · exact adds_pure

/-- What follows a refusal need only be considered where there is none. -/
theorem adds_refuse_bind [Decidable condition] {error : Int32} {second : PUnit → Call Value}
    (rest : ¬ condition → Adds uses (second PUnit.unit)) :
    Adds uses (refuse condition error >>= second) := by
  intro kernel
  rw [run_refuse]
  by_cases holds : condition
  · rw [if_pos holds]
    exact ⟨[], rfl, by simp⟩
  · rw [if_neg holds]
    exact rest holds kernel

theorem adds_fdtable_at (allowed : uses (.file fd)) : Adds uses (fdtableAt fd) :=
  adds_one allowed fun _ => rfl

theorem adds_set_fdtable {file : Pointer} (allowed : uses (.file fd)) :
    Adds uses (setFdtable fd file) :=
  adds_one allowed fun _ => rfl

theorem adds_fdesc_at (allowed : uses (.file fd)) : Adds uses (fdescAt fd) :=
  (adds_fdtable_at allowed).bind fun _ => adds_inspect

theorem adds_set_field {assign : Fdesc → Fdesc} (allowed : uses (.file fd)) :
    Adds uses (setField fd assign) :=
  (adds_fdtable_at allowed).bind fun _ => adds_change fun _ => rfl

theorem adds_proc_array_at {pid : Int} (allowed : uses (.process pid)) :
    Adds uses (procArrayAt pid) :=
  adds_one allowed fun _ => rfl

theorem adds_set_proc_array {pid : Int} {process : Pointer} (allowed : uses (.process pid)) :
    Adds uses (setProcArray pid process) :=
  adds_one allowed fun _ => rfl

theorem adds_lock_acquire {obtained : Bool} : Adds uses (lockAcquire lock obtained) :=
  adds_require.bind fun _ => adds_inspect.bind fun _ => adds_require.bind fun _ =>
    adds_require.bind fun _ => adds_change fun _ => rfl

theorem adds_lock_release {sameCpu : Bool} : Adds uses (lockRelease lock sameCpu) :=
  adds_require.bind fun _ => adds_change fun _ => rfl

theorem adds_lock_destroy {waiters : Bool} : Adds uses (lockDestroy lock waiters) :=
  adds_require.bind fun _ => adds_require.bind fun _ => adds_change fun _ => rfl

theorem adds_search {test : Kernel → Nat → Bool} {touch : Nat → List Touch} {index count : Nat}
    (allowed : ∀ place, index ≤ place → place < index + count → ∀ used ∈ touch place, uses used) :
    Adds uses (search test touch index count) := by
  induction count generalizing index with
  | zero => exact adds_pure
  | succ count ih =>
    have round : Adds uses (change (record (touch index)) : Call PUnit) := by
      intro kernel
      exact ⟨touch index, rfl, allowed index (Nat.le_refl _) (by omega)⟩
    refine round.bind fun _ => adds_inspect.bind fun found => ?_
    cases found with
    | true => exact adds_pure
    | false =>
      exact ih fun place low high => allowed place (by omega) (by omega)

theorem adds_transfer_locked {size : UInt32} {transfer : Transfer} (allowed : uses (.file fd)) :
    Adds uses (transferLocked fd size transfer) :=
  (adds_fdesc_at allowed).bind fun _ => adds_lock_acquire.bind fun _ => adds_require.bind fun _ =>
    adds_require.bind fun _ => (adds_fdesc_at allowed).bind fun _ =>
    (adds_fdesc_at allowed).bind fun _ => adds_refuse.bind fun _ =>
    (adds_set_field allowed).bind fun _ => (adds_fdesc_at allowed).bind fun _ =>
    adds_lock_release.bind fun _ => adds_pure

/-- A call that has used the slot it is asked to use, and uses no other, is
confined exactly if that is a slot. -/
theorem confined_iff_inside {call : Syscall} {slot : Touch} {middle : Kernel} {rest : Call Int32}
    (asked : call.argument = some slot)
    (runs : call.program (unrecorded kernel) = rest middle) (used : middle.touched = [slot])
    (only : Adds (UseOf slot) rest) : Confined kernel call ↔ slot.Inside := by
  obtain ⟨touches, touched, same⟩ := only middle
  rw [← runs, used] at touched
  constructor
  · intro confined
    exact confined.1 slot (by simp [touched])
  · intro inside
    refine ⟨?_, ?_⟩
    · intro other member
      rw [touched] at member
      rcases List.mem_append.mp member with later | first
      · exact same other later ▸ inside
      · exact List.mem_singleton.mp first ▸ inside
    · intro other otherAsked outside
      rw [asked] at otherAsked
      cases otherAsked
      exact absurd inside outside

theorem use_of_self (slot : Touch) : UseOf slot slot :=
  rfl

theorem sys_read_confined (kernel : Kernel) (fd : Int32) (buf : Pointer) (size : UInt32)
    (transfer : Transfer) :
    Confined kernel (.sysRead fd buf size transfer) ↔
      InTables kernel (.sysRead fd buf size transfer) := by
  have runs : (Syscall.sysRead fd buf size transfer).program (unrecorded kernel) = _ :=
    run_fdtable_at
  exact confined_iff_inside rfl runs rfl
    (adds_refuse.bind fun _ => adds_transfer_locked (use_of_self _))

/-- Without a buffer `sys_write` is refused before it looks at the table. -/
theorem sys_write_confined (kernel : Kernel) (fd : Int32) (buf : Pointer) (size : UInt32)
    (transfer : Transfer) :
    Confined kernel (.sysWrite fd buf size transfer) ↔
      InTables kernel (.sysWrite fd buf size transfer) := by
  have start : (Syscall.sysWrite fd buf size transfer).program (unrecorded kernel) = _ := run_refuse
  by_cases missing : buf = null
  · rw [if_pos missing] at start
    refine iff_of_true ⟨?_, ?_⟩ (fun given => absurd missing given)
    · rw [start]
      simp [touchedBy, unrecorded]
    · exact fun _ _ _ => ⟨efault, unrecorded kernel, start⟩
  · rw [if_neg missing] at start
    have inside := confined_iff_inside rfl (start.trans run_fdtable_at) rfl
      (adds_refuse.bind fun _ => adds_transfer_locked (use_of_self _))
    exact inside.trans ⟨fun within _ => within, fun within => within missing⟩

theorem sys_close_confined (kernel : Kernel) (fd : Int32) (closing : Closing) :
    Confined kernel (.sysClose fd closing) ↔ InTables kernel (.sysClose fd closing) := by
  have runs : (Syscall.sysClose fd closing).program (unrecorded kernel) = _ := run_fdtable_at
  have allowed := use_of_self (.file fd.toInt)
  refine confined_iff_inside rfl runs rfl ?_
  refine adds_refuse.bind fun _ => (adds_fdesc_at allowed).bind fun _ =>
    adds_lock_acquire.bind fun _ => (adds_set_field allowed).bind fun _ =>
    (adds_fdesc_at allowed).bind fun counted => ?_
  split
  · exact (adds_fdesc_at allowed).bind fun _ => adds_require.bind fun _ =>
      adds_lock_destroy.bind fun _ => (adds_set_fdtable allowed).bind fun _ => adds_pure
  · exact (adds_fdesc_at allowed).bind fun _ => adds_lock_release.bind fun _ => adds_pure

theorem sys_waitpid_confined (kernel : Kernel) (pid : Int32) (waiting : Waiting) :
    Confined kernel (.sysWaitpid pid waiting) ↔ InTables kernel (.sysWaitpid pid waiting) := by
  have runs : (Syscall.sysWaitpid pid waiting).program (unrecorded kernel) = _ := run_proc_array_at
  have allowed := use_of_self (.process pid.toInt)
  refine confined_iff_inside rfl runs rfl ?_
  have waits (sem : Pointer) : Adds (UseOf (.process pid.toInt)) (waitChildsem sem waiting) :=
    adds_require.bind fun _ => adds_require.bind fun _ => adds_change fun _ => rfl
  exact adds_refuse.bind fun _ => (adds_proc_array_at allowed).bind fun _ =>
    adds_inspect.bind fun _ => (waits _).bind fun _ => (adds_proc_array_at allowed).bind fun _ =>
    adds_require.bind fun _ => adds_require.bind fun _ => adds_pure

/-- A call that is asked for no slot and uses slots of the tables only. -/
theorem confined_of_adds {call : Syscall} (asked : call.argument = none)
    (inside : Adds Touch.Inside call.program) : Confined kernel call := by
  obtain ⟨touches, touched, within⟩ := inside (unrecorded kernel)
  refine ⟨?_, ?_⟩
  · rw [touched, unrecorded, List.append_nil]
    exact within
  · intro slot other
    rw [asked] at other
    cases other

/-- A pid that has been found is one past the table at most. -/
theorem find_pid_bound {middle : Kernel} {pid : Nat} (ran : findPid kernel = .done pid middle) :
    pid ≤ pidMax := by
  have found := scan_bound (pidFree kernel) 1 (pidMax - 1)
  rw [findPid, search_run pidFree (fun _ _ => rfl)] at ran
  cases ran
  exact found

/-- `sys_fork` uses slots of the tables only: its searches end where the tables do. -/
theorem sys_fork_confined (kernel : Kernel) (forking : Forking) :
    Confined kernel (.sysFork forking) := by
  have pids : Adds Touch.Inside findPid := by
    refine adds_search ?_
    intro pid low high used member
    cases List.mem_singleton.mp member
    exact ⟨by omega, by omega⟩
  have children : Adds Touch.Inside findChild := by
    refine adds_search ?_
    intro _ _ _ used member
    cases member
  refine confined_of_adds rfl ?_
  refine adds_inspect.bind fun _ => adds_lock_acquire.bind fun _ => adds_require.bind fun _ =>
    adds_require.bind fun _ => adds_require.bind fun _ =>
    pids.bind_returned fun _ pid _ ran => adds_refuse_bind fun room => ?_
  have allowed : Touch.Inside (.process pid) := by
    have bound := find_pid_bound ran
    exact ⟨by omega, by omega⟩
  exact (adds_set_proc_array allowed).bind fun _ => (adds_change fun _ => by rfl).bind fun _ =>
    children.bind fun _ => adds_refuse.bind fun _ => (adds_change fun _ => by rfl).bind fun _ =>
    adds_require.bind fun _ => adds_lock_release.bind fun _ => adds_pure

theorem adds_open_standard {standard : Standard} (allowed : uses (.file fd)) :
    Adds uses (openStandard fd standard) :=
  (adds_set_fdtable allowed).bind fun _ => adds_require.bind fun _ =>
    (adds_set_field allowed).bind fun _ => (adds_set_field allowed).bind fun _ =>
    (adds_set_field allowed).bind fun _ => (adds_set_field allowed).bind fun _ =>
    (adds_set_field allowed).bind fun _ => (adds_fdesc_at allowed).bind fun _ => adds_pure

theorem runprogram_confined (kernel : Kernel) (starting : Starting) :
    Confined kernel (.runprogram starting) := by
  have standard (fd : Int) (file : Standard) (low : 0 ≤ fd) (high : fd ≤ 2) :
      Adds Touch.Inside (openStandard fd file) :=
    adds_open_standard (show Touch.Inside (.file fd) from ⟨low, show fd < 128 by omega⟩)
  refine confined_of_adds rfl ?_
  exact (adds_change fun _ => by rfl).bind fun _ => adds_inspect.bind fun _ =>
    adds_lock_acquire.bind fun _ => adds_refuse.bind fun _ => adds_inspect.bind fun _ =>
    adds_require.bind fun _ => adds_refuse.bind fun _ => (adds_change fun _ => by rfl).bind fun _ =>
    adds_refuse.bind fun _ => (standard 0 _ (by omega) (by omega)).bind fun _ =>
    (standard 1 _ (by omega) (by omega)).bind fun _ =>
    (standard 2 _ (by omega) (by omega)).bind fun _ => adds_refuse.bind fun _ =>
    (adds_change fun _ => by rfl).bind fun _ => adds_lock_release.bind fun _ => adds_halt

/-- `sys_open` uses the slot it has found, and no other from there on. -/
theorem fill_slot_touched (kernel : Kernel) (fd : Nat) (flags : Int32) (opening : Opening) :
    ∃ touches, touchedBy (fillSlot fd flags opening kernel) =
        touches ++ .file fd :: kernel.touched ∧ ∀ used ∈ touches, used = .file fd := by
  have allowed := use_of_self (.file fd)
  have rest (program : PUnit → Call Int32) (only : Adds (UseOf (.file fd)) (program PUnit.unit)) :
      ∃ touches, touchedBy ((setFdtable fd opening.newfdesc >>= program) kernel) =
        touches ++ .file fd :: kernel.touched ∧ ∀ used ∈ touches, used = .file fd :=
    only _
  exact rest _ (adds_refuse.bind fun _ => adds_refuse.bind fun _ =>
    (adds_set_field allowed).bind fun _ => (adds_set_field allowed).bind fun _ =>
    (adds_set_field allowed).bind fun _ => (adds_set_field allowed).bind fun _ =>
    (adds_set_field allowed).bind fun _ => (adds_fdesc_at allowed).bind fun _ =>
    (adds_set_field allowed).bind fun _ => adds_pure)

/-- The slot the search of `sys_open` ends at. -/
def foundFd (kernel : Kernel) : Nat :=
  (scan (fdFree kernel) 0 openMax).getD openMax

/-- `sys_open` that is not refused searches the table and fills what it has found. -/
theorem sys_open_searches {filename : Pointer} {flags : Int32} {opening : Opening}
    (searches : Searches filename flags opening) :
    sysOpen filename flags opening kernel = fillSlot (foundFd kernel) flags opening
        (record (searched (fdFree kernel) (fun fd => [.file fd]) 0 openMax) kernel) := by
  obtain ⟨file, mode, name, statbuf, newfdesc⟩ := searches
  rw [sysOpen, run_refuse, if_neg file, run_refuse, if_neg mode, run_refuse, if_neg name,
    run_refuse, if_neg statbuf, run_refuse, if_neg newfdesc, run_find_fd]
  rfl

/-- `sys_open` that is refused before the search has used nothing. -/
theorem sys_open_refused (kernel : Kernel) {filename : Pointer} {flags : Int32}
    {opening : Opening} (refused : ¬ Searches filename flags opening) :
    touchedBy (sysOpen filename flags opening kernel) = kernel.touched := by
  simp only [sysOpen, run_refuse]
  split
  · rfl
  split
  · rfl
  split
  · rfl
  · split
    · rfl
    · split
      · rfl
      · exact absurd ⟨‹_›, ‹_›, ‹_›, ‹_›, ‹_›⟩ refused

/-- The search ends in the table exactly if there is a free slot. -/
theorem found_fd_inside_iff (kernel : Kernel) :
    (Touch.file (foundFd kernel)).Inside ↔ ∃ fd : Nat, fd < openMax ∧ kernel.fdtable fd = null := by
  have misses := scan_misses_iff (fdFree kernel) 0 openMax
  have bound := scan_bound (fdFree kernel) 0 openMax
  have inside : (Touch.file (foundFd kernel)).Inside ↔ ¬ foundFd kernel = openMax := by
    simp only [Touch.Inside, foundFd, Nat.zero_add] at bound ⊢
    omega
  rw [inside, foundFd]
  simpa [fdFree] using not_congr misses

/-- The search of `sys_open` uses slots of the table. -/
theorem searched_inside (kernel : Kernel) (used : Touch)
    (member : used ∈ searched (fdFree kernel) (fun fd => [.file fd]) 0 openMax) : used.Inside := by
  obtain ⟨fd, low, high, named⟩ := searched_within _ _ _ _ used member
  cases List.mem_singleton.mp named
  exact ⟨by omega, by omega⟩

/-- `sys_open` uses slots of the table only exactly when there is a free one to find. -/
theorem sys_open_confined (kernel : Kernel) (filename : Pointer) (flags : Int32)
    (opening : Opening) :
    Confined kernel (.sysOpen filename flags opening) ↔
      InTables kernel (.sysOpen filename flags opening) := by
  have unasked (slot : Touch) : (Syscall.sysOpen filename flags opening).argument ≠ some slot := by
    simp [Syscall.argument]
  by_cases searches : Searches filename flags opening
  · obtain ⟨touches, used, only⟩ := fill_slot_touched
      (record (searched (fdFree (unrecorded kernel)) (fun fd => [.file fd]) 0 openMax)
        (unrecorded kernel)) (foundFd (unrecorded kernel)) flags opening
    have runs : (Syscall.sysOpen filename flags opening).program (unrecorded kernel) = _ :=
      sys_open_searches searches
    rw [← runs] at used
    have table := found_fd_inside_iff (unrecorded kernel)
    constructor
    · intro confined _
      exact table.mp (confined.1 _ (by rw [used]; simp))
    · intro room
      have inside := table.mpr (room searches)
      refine ⟨?_, fun slot asked => absurd asked (unasked slot)⟩
      intro other member
      rw [used] at member
      rcases List.mem_append.mp member with later | before
      · exact only other later ▸ inside
      · rcases List.mem_cons.mp before with found | search
        · exact found ▸ inside
        · exact searched_inside (unrecorded kernel) other (by simpa [record, unrecorded] using search)
  · have refused := sys_open_refused (unrecorded kernel) searches
    refine iff_of_true ⟨?_, fun slot asked => absurd asked (unasked slot)⟩
      (fun reached => absurd reached searches)
    intro other member
    rw [Syscall.program, refused] at member
    cases member

/-- A call uses slots of the tables only, and returns an error if it is asked for
another, exactly if it is given a descriptor or a pid of the tables (which
`sys_write` without a buffer does not look at), and `sys_open` finds a free slot
if it gets as far as looking for one. -/
theorem slots_confined_iff (kernel : Kernel) (call : Syscall) :
    Confined kernel call ↔ InTables kernel call := by
  cases call with
  | sysOpen filename flags opening => exact sys_open_confined kernel filename flags opening
  | sysRead fd buf size transfer => exact sys_read_confined kernel fd buf size transfer
  | sysWrite fd buf size transfer => exact sys_write_confined kernel fd buf size transfer
  | sysClose fd closing => exact sys_close_confined kernel fd closing
  | sysWaitpid pid waiting => exact sys_waitpid_confined kernel pid waiting
  | sysFork forking => exact iff_of_true (sys_fork_confined kernel forking) True.intro
  | runprogram starting => exact iff_of_true (runprogram_confined kernel starting) True.intro

/-- A thread whose file table is full, and whose next field is null as well as the
memory on the other side. -/
def fullTable : Kernel where
  fdtable := fun fd => if 0 ≤ fd ∧ fd < openMax then 4096 else null
  fdesc := fun _ => ⟨null, 0, 1, 0, null, 8192⟩
  procArray := fun _ => null
  proc := fun _ => ⟨null, 1, 0, 0, fun _ => -1, null, null, 1, null, null⟩
  curproc := ⟨null, 1, 0, 0, fun _ => -1, null, null, 1, null, null⟩
  procLock := null
  held := []
  touched := []

/-- An open all of whose calls succeed. -/
def smoothOpen : Opening where
  name := 12288
  statbuf := 16384
  newfdesc := 20480
  copyinstr := 0
  vfsOpen := 0
  vn := 24576
  lockCreate := 28672
  stSize := 0

/-- With a full table `sys_open` succeeds, returns the descriptor 128 and stores the
object into the field behind the table. `sys_close` and `sys_waitpid` index their
tables with minus one. -/
theorem slots_outside_tables :
    ¬ Confined fullTable (.sysOpen 65536 oRdonly smoothOpen) ∧
    (∃ after, sysOpen 65536 oRdonly smoothOpen fullTable = .done 128 after ∧
      after.fdtable 128 = 20480) ∧
    (∃ after, sysClose (-1) ⟨true, true, false, true⟩ fullTable = .fail ebadf after ∧
      after.touched = [.file (-1)]) ∧
    ∃ after, sysWaitpid (-1) ⟨none, true⟩ fullTable = .fail (-1) after ∧
      after.touched = [.process (-1)] := by
  have searches : Searches 65536 oRdonly smoothOpen := by
    refine ⟨?_, ?_, ?_, ?_, ?_⟩ <;> decide
  have found : foundFd fullTable = 128 := by decide +kernel
  refine ⟨?_, ?_, ⟨_, rfl, rfl⟩, ⟨_, rfl, rfl⟩⟩
  · rw [sys_open_confined]
    intro room
    have inside : (Touch.file (foundFd fullTable)).Inside :=
      (found_fd_inside_iff fullTable).mpr (room searches)
    rw [found] at inside
    exact absurd inside.2 (by decide)
  · rw [sys_open_searches searches, found]
    exact ⟨_, rfl, rfl⟩

end Os161.Proc.Calls
