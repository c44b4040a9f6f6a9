import Os161.Proc.Calls

/-!
# Sleep locks held when a call returns

What a call has to meet for the thread to return with the locks it came with is
computed backwards through the program: each rule below gives the condition
before one kind of statement from the condition after it.
-/
namespace Os161.Proc.Calls

open Os161.Library Os161.Library.Program Function
open Os161.Proc.FileTable (openMax)
open Os161.Proc.ProcTable (pidMax memsetChildren scan scan_found scan_none)

variable {Value Result : Type} {held : List Pointer} {kernel : Kernel}

/-- If the call returns, the thread holds exactly these sleep locks. -/
def Returns (held : List Pointer) (outcome : Outcome Halted Int32 Kernel Value) : Prop :=
  outcome.Satisfies True (fun _ after => ∀ lock, lock ∈ after.held ↔ lock ∈ held)
    (fun _ after => ∀ lock, lock ∈ after.held ↔ lock ∈ held)

/-- `lock_acquire` returns. -/
def Obtains (kernel : Kernel) (lock : Pointer) (obtained : Bool) : Prop :=
  lock ≠ null ∧ lock ∉ kernel.held ∧ obtained = true

/-- A transfer gets as far as the vnode operation only if that does not return a
negative number. -/
def TransferReleases (kernel : Kernel) (fd : Int) (size : UInt32) (transfer : Transfer) : Prop :=
  let file := kernel.fdesc (kernel.fdtable fd)
  Obtains kernel file.fdlock transfer.obtained → transfer.uio = true → transfer.iov = true →
    ¬ (transfer.vop file.vn file.offset size).result < 0

/-- What a call has to meet. A transfer does not get a negative result from the
vnode operation; a fork finds a pid and room in the list of children; and nothing
fails in `runprogram`. The others need nothing. -/
def Releases (kernel : Kernel) : Syscall → Prop
  | .sysRead fd buf size transfer =>
    kernel.fdtable fd.toInt ≠ null → buf ≠ null → size ≠ 0 →
      TransferReleases kernel fd.toInt size transfer
  | .sysWrite fd buf size transfer =>
    buf ≠ null → kernel.fdtable fd.toInt ≠ null → TransferReleases kernel fd.toInt size transfer
  | .sysFork forking =>
    Obtains kernel kernel.procLock forking.obtained → forking.newtf ≠ null →
      forking.newproc ≠ null → forking.pName ≠ null →
      (∃ pid : Nat, 1 ≤ pid ∧ pid < pidMax ∧ kernel.procArray pid = null) ∧
        ∃ index, index < pidMax ∧ kernel.curproc.pChildren index = -1
  | .runprogram starting =>
    Obtains kernel (programLock kernel starting) starting.obtained →
      starting.vfsOpen = 0 ∧ (kernel.curproc.pAddrspace = null →
        starting.asCreate ≠ null ∧ starting.loadElf = 0 ∧
          (starting.fin.file ≠ null → starting.fout.file ≠ null → starting.ferr.file ≠ null →
            starting.asDefineStack = 0))
  | .sysOpen _ _ _ | .sysClose _ _ | .sysWaitpid _ _ => True

variable {second : PUnit → Call Value} {lock : Pointer} {condition : Prop}

theorem returns_require [Decidable condition] {why : Halt} :
    Returns held ((require condition why >>= second) kernel) ↔
      (condition → Returns held (second PUnit.unit kernel)) := by
  by_cases holds : condition
  · simp only [require, holds, forall_const]
    exact Iff.rfl
  · simp only [require, holds, false_implies, iff_true]
    exact True.intro

theorem returns_refuse [Decidable condition] {error : Int32} :
    Returns held ((refuse condition error >>= second) kernel) ↔
      (condition → ∀ lock, lock ∈ kernel.held ↔ lock ∈ held) ∧
        (¬ condition → Returns held (second PUnit.unit kernel)) := by
  rw [run_refuse]
  by_cases holds : condition
  · simp only [holds, if_true, forall_const, not_true, false_implies, and_true]
    exact Iff.rfl
  · simp [holds]

/-- What follows `lock_acquire` runs with the lock, if it runs. -/
theorem returns_lock_acquire {obtained : Bool} :
    Returns held ((lockAcquire lock obtained >>= second) kernel) ↔ (Obtains kernel lock obtained →
        Returns held (second PUnit.unit { kernel with held := lock :: kernel.held })) := by
  simp [lockAcquire, run_bind_bind, returns_require, run_bind_inspect, run_bind_change, Obtains,
    and_imp]

/-- What follows `lock_release` runs without the lock, if it runs. -/
theorem returns_lock_release {sameCpu : Bool} :
    Returns held ((lockRelease lock sameCpu >>= second) kernel) ↔ (sameCpu = true →
        Returns held (second PUnit.unit { kernel with held := kernel.held.erase lock })) := by
  simp [lockRelease, run_bind_bind, returns_require, run_bind_change]

/-- What follows `lock_destroy` runs without the lock, if it runs. -/
theorem returns_lock_destroy {waiters : Bool} :
    Returns held ((lockDestroy lock waiters >>= second) kernel) ↔ (lock ≠ null → waiters = false →
        Returns held (second PUnit.unit { kernel with held := kernel.held.erase lock })) := by
  simp [lockDestroy, run_bind_bind, returns_require, run_bind_change]

theorem extra_lock_shows (absent : lock ∉ held) :
    ¬ ∀ other, other ∈ lock :: held ↔ other ∈ held := by
  intro same
  exact absent ((same lock).mp List.mem_cons_self)

theorem returns_pure {value : Value} :
    Returns held ((pure value : Call Value) kernel) ↔ ∀ lock, lock ∈ kernel.held ↔ lock ∈ held :=
  Iff.rfl

section

variable (kernel : Kernel)

/-- A transfer returns with the locks it found exactly if the vnode operation does
not return a negative number. -/
theorem transfer_locked_returns (fd : Int) (size : UInt32) (transfer : Transfer) :
    Returns kernel.held (transferLocked fd size transfer kernel) ↔
      TransferReleases kernel fd size transfer := by
  simp only [transferLocked, fdescAt, setField, run_bind_bind, run_fdtable_at, run_bind_inspect,
    returns_lock_acquire, returns_require, returns_refuse, run_bind_change, returns_lock_release,
    returns_pure, record, TransferReleases]
  constructor
  · intro returned obtained uio iov negative
    exact extra_lock_shows obtained.2.1 ((returned obtained uio iov).1 negative)
  · intro releases obtained uio iov
    refine ⟨fun negative => absurd negative (releases obtained uio iov), ?_⟩
    intro _ _
    rw [update_self, List.erase_cons_head]
    exact fun _ => Iff.rfl

theorem sys_read_returns (fd : Int32) (buf : Pointer) (size : UInt32) (transfer : Transfer) :
    Returns kernel.held (sysRead fd buf size transfer kernel) ↔
      Releases kernel (.sysRead fd buf size transfer) := by
  have tail := transfer_locked_returns (record [.file fd.toInt] kernel) fd.toInt size transfer
  simp only [sysRead, run_fdtable_at, returns_refuse, Releases]
  constructor
  · intro returned slot buffer bytes
    exact tail.mp (returned.2 (by simp [slot, buffer, bytes]))
  · intro releases
    refine ⟨fun _ _ => Iff.rfl, ?_⟩
    intro accepted
    simp only [not_or] at accepted
    exact tail.mpr (releases accepted.1 accepted.2.1 accepted.2.2)

theorem sys_write_returns (fd : Int32) (buf : Pointer) (size : UInt32) (transfer : Transfer) :
    Returns kernel.held (sysWrite fd buf size transfer kernel) ↔
      Releases kernel (.sysWrite fd buf size transfer) := by
  have tail := transfer_locked_returns (record [.file fd.toInt] kernel) fd.toInt size transfer
  simp only [sysWrite, run_fdtable_at, returns_refuse, Releases]
  constructor
  · intro returned buffer slot
    exact tail.mp ((returned.2 buffer).2 slot)
  · intro releases
    refine ⟨by simp, ?_⟩
    intro buffer
    refine ⟨fun _ _ => Iff.rfl, ?_⟩
    intro slot
    exact tail.mpr (releases buffer slot)

/-- The lock of a file is released or destroyed on every path of `sys_close` that
has taken it. -/
theorem sys_close_returns (fd : Int32) (closing : Closing) :
    Returns kernel.held (sysClose fd closing kernel) := by
  simp only [sysClose, fdescAt, setField, run_bind_bind, run_fdtable_at, run_bind_inspect,
    returns_lock_acquire, returns_refuse, run_bind_change, record]
  refine ⟨by simp, ?_⟩
  intro _ _
  split
  · simp only [run_bind_bind, run_fdtable_at, run_bind_inspect, returns_require,
      returns_lock_destroy, setFdtable, run_bind_change, returns_pure, record]
    intro _ _ _
    rw [update_self, List.erase_cons_head]
    exact fun _ => Iff.rfl
  · simp only [run_bind_bind, run_fdtable_at, run_bind_inspect, returns_lock_release, returns_pure,
      record]
    intro _
    rw [update_self, List.erase_cons_head]
    exact fun _ => Iff.rfl

/-- `sys_fork` finds a pid exactly if `proc_Array` has a free slot. -/
theorem pid_found_iff : (scan (pidFree kernel) 1 (pidMax - 1)).getD pidMax ≠ pidMax ↔
      ∃ pid : Nat, 1 ≤ pid ∧ pid < pidMax ∧ kernel.procArray pid = null := by
  have misses := scan_misses_iff (pidFree kernel) 1 (pidMax - 1)
  simpa [pidFree] using not_congr misses

/-- `sys_fork` finds an end of the list of children exactly if there is one. -/
theorem child_found_iff : (scan (childFree kernel) 0 pidMax).getD pidMax ≠ pidMax ↔
      ∃ index, index < pidMax ∧ kernel.curproc.pChildren index = -1 := by
  have misses := scan_misses_iff (childFree kernel) 0 pidMax
  simpa [childFree] using not_congr misses

/-- `sys_fork` gives its lock back exactly on the paths of `Releases`. -/
theorem sys_fork_returns (forking : Forking) :
    Returns kernel.held (sysFork forking kernel) ↔ Releases kernel (.sysFork forking) := by
  simp only [sysFork, run_bind_inspect, returns_lock_acquire, returns_require, run_find_pid,
    returns_refuse, setProcArray, run_bind_change, run_find_child, returns_lock_release,
    returns_pure, record, Releases, ← pid_found_iff, ← child_found_iff]
  constructor
  · intro returned obtained newtf newproc name
    have paths := returned obtained newtf newproc name
    have stuck := extra_lock_shows obtained.2.1
    have found := fun full => stuck (paths.1 full)
    exact ⟨found, fun full => stuck ((paths.2 found).1 full)⟩
  · intro releases obtained newtf newproc name
    have found := releases obtained newtf newproc name
    refine ⟨fun full => absurd full found.1, ?_⟩
    intro _
    refine ⟨fun full => absurd full found.2, ?_⟩
    intro _ _ _
    rw [List.erase_cons_head]
    exact fun _ => Iff.rfl

end

theorem returns_open_standard {fd : Int} {standard : Standard}
    (continues : ∀ after : Kernel, after.held = kernel.held →
      (Returns held (second PUnit.unit after) ↔ condition)) :
    Returns held ((openStandard fd standard >>= second) kernel) ↔
      (standard.file ≠ null → condition) := by
  simp only [openStandard, setFdtable, setField, fdescAt, run_bind_bind, run_bind_change,
    returns_require, run_fdtable_at, run_bind_inspect]
  exact imp_congr_right (fun _ => continues _ rfl)

/-- With one more lock held, `runprogram` must not fail any more. -/
theorem enter_program_returns (kernel : Kernel) (starting : Starting) (absent : lock ∉ held)
    (locked : kernel.held = lock :: held) :
    Returns held (enterProgram starting lock kernel) ↔
      (starting.fin.file ≠ null → starting.fout.file ≠ null → starting.ferr.file ≠ null →
        starting.asDefineStack = 0) := by
  refine returns_open_standard fun first sameFirst => ?_
  refine returns_open_standard fun second sameSecond => ?_
  refine returns_open_standard fun third sameThird => ?_
  have stuck : ¬ ∀ other, other ∈ third.held ↔ other ∈ held := by
    rw [sameThird, sameSecond, sameFirst, locked]
    exact extra_lock_shows absent
  rw [returns_refuse, run_bind_change, returns_lock_release]
  constructor
  · intro returned
    by_contra failed
    exact stuck (returned.1 failed)
  · intro succeeded
    exact ⟨fun failed => absurd succeeded failed, fun _ _ => True.intro⟩

theorem runprogram_returns (kernel : Kernel) (starting : Starting) :
    Returns kernel.held (runprogram starting kernel) ↔ Releases kernel (.runprogram starting) := by
  simp only [runprogram, run_bind_inspect, returns_lock_acquire, returns_require, returns_refuse,
    run_bind_change, Releases]
  refine imp_congr_right ?_
  intro obtained
  have absent : programLock kernel starting ∉ kernel.held := obtained.2.1
  rw [enter_program_returns _ starting absent]
  · grind
  · rfl

theorem sys_open_returns (kernel : Kernel) (filename : Pointer) (flags : Int32)
    (opening : Opening) : Returns kernel.held (sysOpen filename flags opening kernel) := by
  simp only [sysOpen, fillSlot, setFdtable, setField, fdescAt, run_bind_bind, run_bind_change,
    run_bind_inspect, run_fdtable_at, run_find_fd, returns_refuse, returns_pure, record]
  simp

theorem sys_waitpid_returns (kernel : Kernel) (pid : Int32) (waiting : Waiting) :
    Returns kernel.held (sysWaitpid pid waiting kernel) := by
  simp only [sysWaitpid, waitChildsem, run_bind_bind, run_bind_change, run_bind_inspect,
    run_proc_array_at, returns_refuse, returns_require, returns_pure, record]
  simp

/-- A call that returns does so with exactly the sleep locks its thread held on
entry, if and only if a vnode operation does not answer with a negative number, a
fork finds a pid and room for its child, and nothing fails in `runprogram` once
it has `proc_Lock`. -/
theorem locks_returned_iff (kernel : Kernel) (call : Syscall) :
    Returns kernel.held (call.program kernel) ↔ Releases kernel call := by
  cases call with
  | sysOpen filename flags opening =>
    exact iff_of_true (sys_open_returns kernel filename flags opening) True.intro
  | sysRead fd buf size transfer => exact sys_read_returns kernel fd buf size transfer
  | sysWrite fd buf size transfer => exact sys_write_returns kernel fd buf size transfer
  | sysClose fd closing => exact iff_of_true (sys_close_returns kernel fd closing) True.intro
  | sysWaitpid pid waiting =>
    exact iff_of_true (sys_waitpid_returns kernel pid waiting) True.intro
  | sysFork forking => exact sys_fork_returns kernel forking
  | runprogram starting => exact runprogram_returns kernel starting

/-- A process structure with nothing in it. -/
def blankProcess : Process where
  pName := null
  pId := 1
  pExitcode := 0
  pParent := 0
  pChildren := fun _ => -1
  pParsem := null
  pChildsem := null
  pNumthreads := 1
  pAddrspace := null
  pCwd := null

/-- An object with nothing in it. -/
def blankFdesc : Fdesc where
  fname := null
  flags := 0
  refcount := 0
  offset := 0
  vn := null
  fdlock := null

/-- A kernel with a given process table, empty otherwise, whose current thread
holds no lock. The address of `proc_Lock` is 4096. -/
def quietKernel (procArray : Int → Pointer) : Kernel where
  fdtable := fun _ => null
  fdesc := fun _ => blankFdesc
  procArray := procArray
  proc := fun _ => blankProcess
  curproc := blankProcess
  procLock := 4096
  held := []
  touched := []

/-- `runprogram` on a program that is not there: `vfs_open` answers 19, which is
`ENOENT`. -/
def missingProgram : Starting where
  lockCreate := null
  obtained := true
  vfsOpen := 19
  asCreate := null
  loadElf := 0
  fin := ⟨null, null, 0, null, null⟩
  fout := ⟨null, null, 0, null, null⟩
  ferr := ⟨null, null, 0, null, null⟩
  asDefineStack := 0
  parsem := null
  childsem := null
  sameCpu := true

/-- A fork all of whose calls succeed. -/
def smoothFork : Forking where
  obtained := true
  newproc := 8192
  newtf := 12288
  newas := 16384
  pName := 20480
  parsem := 24576
  childsem := 28672
  info := 32768
  sameCpu := true

/-- A program that is not there makes `runprogram` return with `proc_Lock` held,
and a fork with every pid in use does not return with the locks it came with. -/
theorem proc_lock_kept_on_errors :
    (∃ after, runprogram missingProgram (quietKernel fun _ => null) = .fail 19 after ∧
      after.held = [4096]) ∧
    ¬ Returns (quietKernel fun _ => 8192).held (sysFork smoothFork (quietKernel fun _ => 8192)) := by
  refine ⟨⟨_, rfl, rfl⟩, ?_⟩
  rw [sys_fork_returns]
  intro releases
  have obtained : Obtains (quietKernel fun _ => 8192) 4096 true := ⟨by decide, by decide, rfl⟩
  have found := releases obtained (by decide) (by decide) (by decide)
  obtain ⟨pid, _, _, free⟩ := found.1
  have used : (8192 : Pointer) ≠ null := by decide
  exact used free

end Os161.Proc.Calls
