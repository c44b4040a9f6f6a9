import Os161.Proc.HeldLocks
import Os161.Proc.Execv

/-!
# Errors that a call does not pass on

`sys_open`, `sys_read` and `sys_write` take a result for an error if it is negative, and the
error codes of the kernel are positive. `sys_fork` and `sys_execv` drop some results.
-/
namespace Os161.Proc.Calls

open Os161.Library Os161.Library.Program Function
open Os161.Proc.ProcTable (pidMax)

/-- A call with the results of the functions it calls: those of `as_copy` and `thread_fork`,
which `sys_fork` does not look at, are not part of the other models. -/
inductive Invocation
  | sysOpen (filename : Pointer) (flags : Int32) (opening : Opening)
  | sysRead (fd : Int32) (buf : Pointer) (size : UInt32) (transfer : Transfer)
  | sysWrite (fd : Int32) (buf : Pointer) (size : UInt32) (transfer : Transfer)
  | sysFork (forking : Forking) (asCopy threadFork : Int32)
  | sysExecv (executing : Execv.Executing)

/-- The vnode operation of a transfer. -/
def Transfer.done (transfer : Transfer) (kernel : Kernel) (fd : Int32) (size : UInt32) : Vop :=
  let file := kernel.fdesc (kernel.fdtable fd.toInt)
  transfer.vop file.vn file.offset size

/-- `sys_open` gets as far as `copyinstr`. -/
def Opens (filename : Pointer) (flags : Int32) (opening : Opening) : Prop :=
  filename ≠ null ∧
    (accessMode flags = oRdonly ∨ accessMode flags = oWronly ∨ accessMode flags = oRdwr) ∧
    opening.name ≠ null ∧ opening.statbuf ≠ null ∧ opening.newfdesc ≠ null

section

variable (kernel : Kernel)

/-- A transfer gets as far as the vnode operation. -/
def Transfers (fd : Int32) (transfer : Transfer) : Prop :=
  Obtains kernel (kernel.fdesc (kernel.fdtable fd.toInt)).fdlock transfer.obtained ∧
    transfer.uio = true ∧ transfer.iov = true

/-- There is a pid for a child, and an end of the list of children. -/
def HasRoom : Prop :=
  (∃ pid : Nat, 1 ≤ pid ∧ pid < pidMax ∧ kernel.procArray pid = null) ∧
    ∃ index, index < pidMax ∧ kernel.curproc.pChildren index = -1

/-- `sys_fork` gets as far as `as_copy`. -/
def Copies (forking : Forking) : Prop :=
  Obtains kernel kernel.procLock forking.obtained ∧ forking.newtf ≠ null

/-- `sys_fork` gets from there to `thread_fork`. -/
def Forks (forking : Forking) : Prop :=
  forking.newproc ≠ null ∧ forking.pName ≠ null ∧ HasRoom kernel ∧ forking.info ≠ null ∧
    forking.sameCpu = true

/-- What the functions that the call gets as far as calling return. -/
def Invocation.Gives : Invocation → Int32 → Prop
  | .sysOpen filename flags opening, result =>
    result = opening.copyinstr ∧ Opens filename flags opening ∨
      result = opening.vfsOpen ∧ Opens filename flags opening ∧ ¬ opening.copyinstr < 0
  | .sysRead fd buf size transfer, result =>
    result = (transfer.done kernel fd size).result ∧
      (kernel.fdtable fd.toInt ≠ null ∧ buf ≠ null ∧ size ≠ 0) ∧ Transfers kernel fd transfer
  | .sysWrite fd buf size transfer, result =>
    result = (transfer.done kernel fd size).result ∧
      (buf ≠ null ∧ kernel.fdtable fd.toInt ≠ null) ∧ Transfers kernel fd transfer
  | .sysFork forking asCopy threadFork, result =>
    result = asCopy ∧ Copies kernel forking ∨
      result = threadFork ∧ Copies kernel forking ∧ Forks kernel forking
  | .sysExecv executing, result =>
    result = executing.copyinstr ∨
      (result ∈ executing.args ∨ result = executing.vfsOpen ∨
        result = executing.loadElf ∧ executing.vfsOpen = 0) ∧
      executing.copyinstr = 0 ∧ executing.size ≠ 1

/-- What a call has to meet for no error to be lost. `sys_open` fails anyway, or `copyinstr`
returns no positive code; nor does the vnode operation of a transfer; `as_copy` and
`thread_fork` succeed, unless the fork fails on a full table; and `load_elf` and the
`copyinstr` of the arguments succeed if the program has been opened. -/
def Invocation.Noticed : Invocation → Prop
  | .sysOpen filename flags opening =>
    Opens filename flags opening → opening.copyinstr ≤ 0 ∨ opening.vfsOpen ≠ 0
  | .sysRead fd buf size transfer =>
    kernel.fdtable fd.toInt ≠ null ∧ buf ≠ null ∧ size ≠ 0 → Transfers kernel fd transfer →
      (transfer.done kernel fd size).result ≤ 0
  | .sysWrite fd buf size transfer =>
    buf ≠ null ∧ kernel.fdtable fd.toInt ≠ null → Transfers kernel fd transfer →
      (transfer.done kernel fd size).result ≤ 0
  | .sysFork forking asCopy threadFork =>
    Copies kernel forking →
      forking.newproc ≠ null ∧ forking.pName ≠ null ∧ ¬ HasRoom kernel ∨
        asCopy = 0 ∧ (Forks kernel forking → threadFork = 0)
  | .sysExecv executing =>
    executing.copyinstr = 0 → executing.size ≠ 1 → executing.vfsOpen = 0 →
      executing.loadElf = 0 ∧ ∀ result ∈ executing.args, result = 0

/-- A transfer that returns has counted the bytes that were moved and has advanced the offset
by as many, if the vnode operation keeps its `uio` in order. -/
def Counts (fd : Int32) (size : UInt32) (transfer : Transfer) (program : Call Int32) : Prop :=
  let file := kernel.fdtable fd.toInt
  ∀ moved, (transfer.done kernel fd size).uioResid = size - moved →
    (transfer.done kernel fd size).uioOffset = (kernel.fdesc file).offset + moved.toUInt64.toInt64 →
    ∀ value after, program kernel = .done value after →
      value = moved.toInt32 ∧
        (after.fdesc file).offset = (kernel.fdesc file).offset + moved.toUInt64.toInt64

end

/-- The call returns an error code, and the user sees it. -/
def Fails {Stop State Value : Type} (outcome : Outcome Stop Int32 State Value) : Prop :=
  ∃ error after, error ≠ 0 ∧ outcome = .fail error after

/-- The user sees the call fail. -/
def Invocation.ShowsError {Space : Type} (kernel : Kernel) (state : Execv.State Space) :
    Invocation → Prop
  | .sysOpen filename flags opening => Fails (Calls.sysOpen filename flags opening kernel)
  | .sysRead fd buf size transfer => Fails (Calls.sysRead fd buf size transfer kernel)
  | .sysWrite fd buf size transfer => Fails (Calls.sysWrite fd buf size transfer kernel)
  | .sysFork forking _ _ => Fails (Calls.sysFork forking kernel)
  | .sysExecv executing => Fails (Execv.sysExecv executing state)

section

variable {Value Stop State : Type} {outcome other : Outcome Stop Int32 State Value}
  {condition : Prop} [Decidable condition] {error : Int32} {state : State} {value : Value}
  {stop : Stop}

theorem fails_ite : Fails (if condition then outcome else other) ↔
    condition ∧ Fails outcome ∨ ¬ condition ∧ Fails other := by
  split <;> simp_all

theorem fails_fail : Fails (.fail error state : Outcome Stop Int32 State Value) ↔ error ≠ 0 := by
  simp [Fails]

theorem fails_pure : Fails ((pure value : Program Stop Int32 State Value) state) ↔ False := by
  refine iff_false_intro ?_
  rintro ⟨error, after, -, failed⟩
  cases failed

theorem fails_stop : Fails (.stop stop : Outcome Stop Int32 State Value) ↔ False := by
  simp [Fails]

end

section

variable (kernel : Kernel)

theorem run_require {Value : Type} {condition : Prop} [Decidable condition] {why : Halt}
    {second : PUnit → Call Value} : (require condition why >>= second) kernel =
      if condition then second PUnit.unit kernel else .stop ⟨why, kernel.touched⟩ := by
  unfold require
  split
  · rfl
  · rfl

theorem sys_open_fails_iff (filename : Pointer) (flags : Int32) (opening : Opening) :
    Fails (sysOpen filename flags opening kernel) ↔
      (Opens filename flags opening → opening.copyinstr < 0 ∨ opening.vfsOpen ≠ 0) := by
  simp only [sysOpen, fillSlot, setFdtable, setField, fdescAt, run_bind_bind, run_bind_change,
    run_bind_inspect, run_fdtable_at, run_find_fd, run_refuse, fails_ite, fails_fail, fails_pure,
    Opens]
  have codes : enodev ≠ 0 ∧ einval ≠ 0 ∧ enomem ≠ 0 ∧ eio ≠ 0 := by decide
  grind

/-- A transfer fails on a negative result of the vnode operation only. -/
theorem transfer_fails_iff (fd : Int32) (size : UInt32) (transfer : Transfer) :
    Fails (transferLocked fd.toInt size transfer kernel) ↔
      Transfers kernel fd transfer ∧ (transfer.done kernel fd size).result < 0 := by
  simp only [transferLocked, fdescAt, setField, lockAcquire, lockRelease, run_bind_bind,
    run_fdtable_at, run_bind_inspect, run_require, run_refuse, run_bind_change, fails_ite,
    fails_fail, fails_pure, fails_stop, Transfers, Obtains, Transfer.done, record]
  grind

theorem sys_read_fails_iff (fd : Int32) (buf : Pointer) (size : UInt32) (transfer : Transfer) :
    Fails (sysRead fd buf size transfer kernel) ↔
      (kernel.fdtable fd.toInt ≠ null ∧ buf ≠ null ∧ size ≠ 0 →
        Transfers kernel fd transfer ∧ (transfer.done kernel fd size).result < 0) := by
  have code : ebadf ≠ 0 := by decide
  have tail : _ ↔ Transfers kernel fd transfer ∧ (transfer.done kernel fd size).result < 0 :=
    transfer_fails_iff (record [.file fd.toInt] kernel) fd size transfer
  simp only [sysRead, run_fdtable_at, run_refuse, fails_ite, fails_fail, tail]
  grind

theorem sys_write_fails_iff (fd : Int32) (buf : Pointer) (size : UInt32) (transfer : Transfer) :
    Fails (sysWrite fd buf size transfer kernel) ↔
      (buf ≠ null ∧ kernel.fdtable fd.toInt ≠ null →
        Transfers kernel fd transfer ∧ (transfer.done kernel fd size).result < 0) := by
  have codes : efault ≠ 0 ∧ ebadf ≠ 0 := by decide
  have tail : _ ↔ Transfers kernel fd transfer ∧ (transfer.done kernel fd size).result < 0 :=
    transfer_fails_iff (record [.file fd.toInt] kernel) fd size transfer
  simp only [sysWrite, run_fdtable_at, run_refuse, fails_ite, fails_fail, tail]
  grind

/-- A fork fails on a full table only. -/
theorem sys_fork_fails_iff (forking : Forking) :
    Fails (sysFork forking kernel) ↔
      Copies kernel forking ∧ forking.newproc ≠ null ∧ forking.pName ≠ null ∧ ¬ HasRoom kernel := by
  have pids (kernel : Kernel) := (not_iff_comm.mp (pid_found_iff kernel)).symm
  have children (kernel : Kernel) := (not_iff_comm.mp (child_found_iff kernel)).symm
  simp only [sysFork, lockAcquire, lockRelease, run_bind_bind, run_bind_inspect, run_require,
    run_find_pid, run_refuse, setProcArray, run_bind_change, run_find_child, fails_ite,
    fails_fail, fails_pure, fails_stop, Copies, Obtains, HasRoom, pids, children, record]
  have code : enproc ≠ 0 := by decide
  grind

end

/-- A transfer that returns has counted what is left, and has stored the offset. -/
theorem transfer_returned {kernel after : Kernel} {fd : Int32} {size : UInt32} {transfer : Transfer}
    {value : Int32} (returned : transferLocked fd.toInt size transfer (record [.file fd.toInt] kernel) =
      .done value after) :
    value = (size - (transfer.done kernel fd size).uioResid).toInt32 ∧
      (after.fdesc (kernel.fdtable fd.toInt)).offset = (transfer.done kernel fd size).uioOffset := by
  simp only [transferLocked, fdescAt, setField, lockAcquire, lockRelease, run_bind_bind,
    run_fdtable_at, run_bind_inspect, run_require, run_refuse, run_bind_change] at returned
  split_ifs at returned
  cases returned
  exact ⟨rfl, by simp [record, Transfer.done]⟩

theorem counts_of_transfer {kernel : Kernel} {fd : Int32} {size : UInt32} {transfer : Transfer}
    {program : Call Int32} (runs : ∀ value after, program kernel = .done value after →
      transferLocked fd.toInt size transfer (record [.file fd.toInt] kernel) = .done value after) :
    Counts kernel fd size transfer program := by
  intro moved resid offset value after returned
  obtain ⟨rfl, stored⟩ := transfer_returned (runs value after returned)
  exact ⟨by grind, stored.trans offset⟩

/-- An error is shown whenever one of the functions a call gets as far as calling returns one,
exactly if the arguments, the state before the call and the results are such that it meets
none it does not look at; and reads and writes count what was moved.

Proof: for each call, when it fails is read off its program; it remains to compare that with
the results it gets. -/
theorem errors_shown_iff {Space : Type} (kernel : Kernel) (state : Execv.State Space) :
    (∀ invocation : Invocation,
      (∀ result, invocation.Gives kernel result → result ≠ 0 → invocation.ShowsError kernel state) ↔
        invocation.Noticed kernel) ∧
    ∀ fd buf size transfer, Counts kernel fd size transfer (sysRead fd buf size transfer) ∧
      Counts kernel fd size transfer (sysWrite fd buf size transfer) := by
  have signs (result : Int32) : result ≤ 0 ↔ result < 0 ∨ result = 0 := Int32.le_iff_lt_or_eq
  refine ⟨fun invocation => ?_, fun fd buf size transfer => ⟨?_, ?_⟩⟩
  · cases invocation with
    | sysOpen filename flags opening =>
      simp only [Invocation.Gives, Invocation.ShowsError, Invocation.Noticed, sys_open_fails_iff,
        signs, or_imp, and_imp, forall_and, forall_eq]
      grind
    | sysRead fd buf size transfer =>
      simp only [Invocation.Gives, Invocation.ShowsError, Invocation.Noticed, sys_read_fails_iff,
        signs, and_imp, forall_eq]
      grind
    | sysWrite fd buf size transfer =>
      simp only [Invocation.Gives, Invocation.ShowsError, Invocation.Noticed, sys_write_fails_iff,
        signs, and_imp, forall_eq]
      grind
    | sysFork forking asCopy threadFork =>
      simp only [Invocation.Gives, Invocation.ShowsError, Invocation.Noticed, sys_fork_fails_iff,
        or_imp, and_imp, forall_and, forall_eq]
      grind
    | sysExecv executing =>
      have codes : efault ≠ 0 ∧ einval ≠ 0 := by decide
      simp only [Invocation.Gives, Invocation.ShowsError, Invocation.Noticed,
        Execv.sys_execv_run, fails_ite, fails_fail, fails_stop, or_imp, and_imp, forall_and,
        forall_eq]
      grind
  · refine counts_of_transfer fun value after returned => ?_
    rw [sysRead, run_fdtable_at, run_refuse] at returned
    split_ifs at returned
    exact returned
  · refine counts_of_transfer fun value after returned => ?_
    rw [sysWrite, run_refuse, run_fdtable_at, run_refuse] at returned
    split_ifs at returned
    exact returned

/-- A program that `load_elf` fails to read. -/
def unreadable : Invocation := .sysExecv { Execv.missing with vfsOpen := 0, loadElf := 32 }

/-- It is started all the same. -/
theorem load_failure_hidden : unreadable.Gives (quietKernel fun _ => null) 32 ∧
    ¬ unreadable.ShowsError (quietKernel fun _ => null) Execv.caller ∧
    ∃ entered, Execv.sysExecv { Execv.missing with vfsOpen := 0, loadElf := 32 } Execv.caller =
      .stop entered := by
  refine ⟨by simp [unreadable, Invocation.Gives, Execv.missing], ?_, _, rfl⟩
  rintro ⟨error, after, -, failed⟩
  cases failed

end Os161.Proc.Calls
