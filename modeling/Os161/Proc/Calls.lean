import Os161.Library.Program
import Os161.Proc.FileTable
import Os161.Proc.ProcTable

/-!
# System calls, the kernel tables and the locks they take

The file calls, `sys_waitpid`, `sys_fork` and `runprogram` are programs here, with
the calls they make answered from outside: what `kmalloc`, the file system and
the address-space code return is part of a call's input. A table is the words
found by indexing from its start, so an index that is not one of its slots
finds, or overwrites, whatever memory is there. Every use of a table is recorded,
and so is every sleep lock the calling thread holds.

Not every call returns. An assertion may fail, a null or wild pointer may be
followed, a thread may wait for good, and `runprogram` ends in user mode.
-/
namespace Os161.Proc.Calls

open Os161.Library Os161.Library.Program Function
open Os161.Proc.FileTable (openMax)
open Os161.Proc.ProcTable (pidMax memsetChildren scan scan_found scan_none)

/-- A word that holds a pointer. -/
abbrev Pointer := UInt32

abbrev null : Pointer := 0

/-- The error numbers the calls return. -/
abbrev enomem : Int32 := 3
abbrev efault : Int32 := 6
abbrev einval : Int32 := 8
abbrev enproc : Int32 := 12
abbrev enodev : Int32 := 25
abbrev ebadf : Int32 := 30
abbrev eio : Int32 := 32

/-- The open flags the calls use. -/
abbrev oRdonly : Int32 := 0
abbrev oWronly : Int32 := 1
abbrev oRdwr : Int32 := 2
abbrev oCreat : Int32 := 4
abbrev oExcl : Int32 := 8
abbrev oTrunc : Int32 := 16
abbrev oAppend : Int32 := 32

/-- An open-file object, `struct fdesc`. -/
structure Fdesc where
  fname : Pointer
  flags : Int32
  refcount : Int32
  offset : Int64
  vn : Pointer
  fdlock : Pointer

/-- The fields of `struct proc` the calls use. -/
structure Process where
  pName : Pointer
  pId : Int32
  pExitcode : Int32
  pParent : Int32
  pChildren : Nat → Int
  pParsem : Pointer
  pChildsem : Pointer
  pNumthreads : UInt32
  pAddrspace : Pointer
  pCwd : Pointer

/-- One use of a slot of the current thread's file table or of `proc_Array`. -/
inductive Touch
  | file (index : Int)
  | process (index : Int)
  deriving DecidableEq

/-- What the calls work on: the words from `curthread->t_fdtable` and from
`proc_Array` on in both directions, the objects the words point to, the structure
of the current process, `proc_Lock`, the sleep locks the thread holds, and the
slots used so far. The memory `kmalloc` returns is not that of the current
process. What a lock protects is as it is once the lock has been obtained. -/
structure Kernel where
  fdtable : Int → Pointer
  fdesc : Pointer → Fdesc
  procArray : Int → Pointer
  proc : Pointer → Process
  curproc : Process
  procLock : Pointer
  held : List Pointer
  touched : List Touch

/-- Why a call does not return. -/
inductive Halt
  | assertion
  | fault
  | waits
  | userMode
  deriving DecidableEq

/-- A call that does not return, with the slots it has used. -/
structure Halted where
  why : Halt
  touched : List Touch

/-- A program on the kernel. It fails with a value other than zero. -/
abbrev Call (Value : Type) := Program Halted Int32 Kernel Value

variable {Value Result : Type}

/-- Not return. -/
def halt (why : Halt) : Call Value :=
  fun kernel => .stop ⟨why, kernel.touched⟩

/-- Not return unless a condition holds. -/
def require (condition : Prop) [Decidable condition] (why : Halt) : Call PUnit :=
  if condition then ret PUnit.unit else halt why

/-- Return an error if a condition holds. -/
def refuse (condition : Prop) [Decidable condition] (error : Int32) : Call PUnit :=
  onlyIf condition (failWith error)

/-- Record uses of slots. -/
def record (touches : List Touch) (kernel : Kernel) : Kernel :=
  { kernel with touched := touches ++ kernel.touched }

/-- The expression `curthread->t_fdtable[fd]`. -/
def fdtableAt (fd : Int) : Call Pointer :=
  fun kernel => .done (kernel.fdtable fd) (record [.file fd] kernel)

/-- An assignment to `curthread->t_fdtable[fd]`. -/
def setFdtable (fd : Int) (file : Pointer) : Call PUnit :=
  change fun kernel =>
    { record [.file fd] kernel with fdtable := update kernel.fdtable fd file }

/-- The object `*curthread->t_fdtable[fd]`. -/
def fdescAt (fd : Int) : Call Fdesc := do
  let file ← fdtableAt fd
  inspect fun kernel => kernel.fdesc file

/-- An assignment to a field of `*curthread->t_fdtable[fd]`. -/
def setField (fd : Int) (assign : Fdesc → Fdesc) : Call PUnit := do
  let file ← fdtableAt fd
  change fun kernel =>
    { kernel with fdesc := update kernel.fdesc file (assign (kernel.fdesc file)) }

/-- The expression `proc_Array[pid]`. -/
def procArrayAt (pid : Int) : Call Pointer :=
  fun kernel => .done (kernel.procArray pid) (record [.process pid] kernel)

/-- An assignment to `proc_Array[pid]`. -/
def setProcArray (pid : Int) (process : Pointer) : Call PUnit :=
  change fun kernel =>
    { record [.process pid] kernel with
      procArray := update kernel.procArray pid process }

/-- `lock_acquire`. The lock is not null, a thread that holds it already waits for
itself, and otherwise the lock may or may not become free. -/
def lockAcquire (lock : Pointer) (obtained : Bool) : Call PUnit := do
  require (lock ≠ null) .assertion
  let held ← inspect Kernel.held
  require (lock ∉ held) .waits
  require (obtained = true) .waits
  change fun kernel => { kernel with held := lock :: kernel.held }

/-- `lock_release`. It asserts that the lock was taken on the CPU it runs on. -/
def lockRelease (lock : Pointer) (sameCpu : Bool) : Call PUnit := do
  require (sameCpu = true) .assertion
  change fun kernel => { kernel with held := kernel.held.erase lock }

/-- `lock_destroy`. It asserts that no thread waits for the lock, and there is no
such lock any more. -/
def lockDestroy (lock : Pointer) (waiters : Bool) : Call PUnit := do
  require (lock ≠ null) .assertion
  require (waiters = false) .assertion
  change fun kernel => { kernel with held := kernel.held.erase lock }

/-- A loop that looks for the first index with some property. -/
def search (test : Kernel → Nat → Bool) (touch : Nat → List Touch) : Nat → Nat → Call Nat
  | index, 0 => pure index
  | index, count + 1 => do
    change (record (touch index))
    let found ← inspect fun kernel => test kernel index
    if found then pure index else search test touch (index + 1) count

variable {kernel : Kernel} {second : Nat → Call Value}

theorem run_refuse {condition : Prop} [Decidable condition] {error : Int32}
    {second : PUnit → Call Value} :
    (refuse condition error >>= second) kernel =
      if condition then .fail error kernel else second PUnit.unit kernel := by
  unfold refuse onlyIf
  split
  · rfl
  · rfl

theorem run_fdtable_at {fd : Int} {second : Pointer → Call Value} :
    (fdtableAt fd >>= second) kernel = second (kernel.fdtable fd) (record [.file fd] kernel) :=
  rfl

theorem run_proc_array_at {pid : Int} {second : Pointer → Call Value} :
    (procArrayAt pid >>= second) kernel =
      second (kernel.procArray pid) (record [.process pid] kernel) :=
  rfl

/-- The slots a search uses. -/
def searched (test : Nat → Bool) (touch : Nat → List Touch) : Nat → Nat → List Touch
  | _, 0 => []
  | index, count + 1 =>
    (if test index then [] else searched test touch (index + 1) count) ++ touch index

/-- A search changes nothing but the record of uses, and it does not read that. -/
theorem search_run (test : Kernel → Nat → Bool) {touch : Nat → List Touch}
    (untouched : ∀ touches kernel, test (record touches kernel) = test kernel)
    (index count : Nat) (kernel : Kernel) :
    search test touch index count kernel =
      .done ((scan (test kernel) index count).getD (index + count))
        (record (searched (test kernel) touch index count) kernel) := by
  induction count generalizing index kernel with
  | zero => rfl
  | succ count ih =>
    rw [search, run_bind_change, run_bind_inspect, untouched, searched, scan]
    by_cases found : test kernel index = true
    · rw [if_pos found, if_pos found, if_pos found]
      rfl
    · rw [if_neg found, if_neg found, if_neg found, ih, untouched]
      simp [record, Nat.add_assoc, Nat.add_comm 1]

/-- A search uses indices of its range only. -/
theorem searched_within (test : Nat → Bool) (touch : Nat → List Touch) (index count : Nat)
    (used : Touch) (member : used ∈ searched test touch index count) :
    ∃ place, index ≤ place ∧ place < index + count ∧ used ∈ touch place := by
  induction count generalizing index with
  | zero => cases member
  | succ count ih =>
    rcases List.mem_append.mp member with later | now
    · split at later
      · cases later
      · obtain ⟨place, low, high, uses⟩ := ih (index + 1) later
        exact ⟨place, by omega, by omega, uses⟩
    · exact ⟨index, Nat.le_refl _, by omega, now⟩

theorem scan_bound (test : Nat → Bool) (index count : Nat) :
    (scan test index count).getD (index + count) ≤ index + count := by
  cases found : scan test index count with
  | none => exact Nat.le_refl _
  | some place => exact Nat.le_of_lt (scan_found test index count place found).2.2

/-- A search ends past its range exactly if nothing in the range passes the test. -/
theorem scan_misses_iff (test : Nat → Bool) (index count : Nat) :
    (scan test index count).getD (index + count) = index + count ↔
      ¬ ∃ place, index ≤ place ∧ place < index + count ∧ test place = true := by
  cases found : scan test index count with
  | none =>
    refine iff_of_true rfl ?_
    rintro ⟨place, low, high, passes⟩
    rw [scan_none test index count place found low high] at passes
    cases passes
  | some place =>
    have inside := scan_found test index count place found
    refine iff_of_false ?_ ?_
    · show place ≠ index + count
      omega
    · exact not_not_intro ⟨place, inside.2.1, inside.2.2, inside.1⟩

/-- The test of a slot of the file table in `sys_open`. -/
def fdFree (kernel : Kernel) (fd : Nat) : Bool :=
  kernel.fdtable fd == null

/-- The test of a slot of `proc_Array` in `sys_fork`. -/
def pidFree (kernel : Kernel) (pid : Nat) : Bool :=
  kernel.procArray pid == null

/-- The test of an entry of the current process's list of children. -/
def childFree (kernel : Kernel) (index : Nat) : Bool :=
  kernel.curproc.pChildren index == -1

/-- What the calls made by `sys_open` return: the three `kmalloc`, `copyinstr`,
`vfs_open` with its vnode, `lock_create`, and the size `VOP_STAT` finds. -/
structure Opening where
  name : Pointer
  statbuf : Pointer
  newfdesc : Pointer
  copyinstr : Int32
  vfsOpen : Int32
  vn : Pointer
  lockCreate : Pointer
  stSize : Int64

/-- The `!` of C. -/
def logicalNot (value : Int32) : Int32 :=
  if value = 0 then 1 else 0

/-- The access mode `sys_open` checks. -/
def accessMode (flags : Int32) : Int32 :=
  flags &&& logicalNot (oCreat ||| oExcl ||| oTrunc ||| oAppend)

/-- The search for a descriptor in `sys_open`. It ends one past the table when
there is none. -/
def findFd : Call Nat :=
  search fdFree (fun fd => [.file fd]) 0 openMax

/-- The loop of `sys_open` over the descriptors is a search. -/
theorem run_find_fd : (findFd >>= second) kernel =
      second ((scan (fdFree kernel) 0 openMax).getD openMax)
        (record (searched (fdFree kernel) (fun fd => [.file fd]) 0 openMax) kernel) :=
  run_bind_done (search_run fdFree (fun _ _ => rfl) 0 openMax kernel)

/-- `sys_open` from where it stores the new object into the slot it has found. -/
def fillSlot (fd : Nat) (flags : Int32) (opening : Opening) : Call Int32 := do
  setFdtable fd opening.newfdesc
  refuse (opening.copyinstr < 0) eio
  refuse (opening.vfsOpen ≠ 0) opening.vfsOpen
  setField fd fun file => { file with fname := opening.name }
  setField fd fun file => { file with flags := flags }
  setField fd fun file => { file with vn := opening.vn }
  setField fd fun file => { file with fdlock := opening.lockCreate }
  setField fd fun file => { file with refcount := 1 }
  let _ ← fdescAt fd
  setField fd fun file =>
    { file with offset := if flags &&& oAppend ≠ 0 then opening.stSize else 0 }
  pure (Int32.ofNat fd)

/-- `sys_open`. The slot is used whatever the search has found. -/
def sysOpen (filename : Pointer) (flags : Int32) (opening : Opening) : Call Int32 := do
  refuse (filename = null) enodev
  refuse (accessMode flags ≠ oRdonly ∧ accessMode flags ≠ oWronly ∧ accessMode flags ≠ oRdwr) einval
  refuse (opening.name = null) enomem
  refuse (opening.statbuf = null) enomem
  refuse (opening.newfdesc = null) enomem
  let fd ← findFd
  fillSlot fd flags opening

/-- What `VOP_READ` and `VOP_WRITE` return and leave in the `uio`. -/
structure Vop where
  result : Int32
  uioOffset : Int64
  uioResid : UInt32

/-- What happens around a transfer: whether the lock is obtained, whether the `uio`
is allocated, whether what its `uio_iov` points to can be written, the vnode
operation on a vnode, an offset and a size, and whether the thread is still on
the CPU it took the lock on. -/
structure Transfer where
  obtained : Bool
  uio : Bool
  iov : Bool
  vop : Pointer → Int64 → UInt32 → Vop
  sameCpu : Bool

/-- What `sys_read` and `sys_write` do from `lock_acquire` on. A negative result
is returned at once. -/
def transferLocked (fd : Int) (size : UInt32) (transfer : Transfer) : Call Int32 := do
  let locked ← fdescAt fd
  lockAcquire locked.fdlock transfer.obtained
  require (transfer.uio = true) .fault
  require (transfer.iov = true) .fault
  let start ← fdescAt fd
  let file ← fdescAt fd
  let done := transfer.vop file.vn start.offset size
  refuse (done.result < 0) done.result
  setField fd fun file => { file with offset := done.uioOffset }
  let unlocked ← fdescAt fd
  lockRelease unlocked.fdlock transfer.sameCpu
  pure (size - done.uioResid).toInt32

/-- `sys_read`. Its `uio` is not initialised, and `uio_iov` with it. -/
def sysRead (fd : Int32) (buf : Pointer) (size : UInt32) (transfer : Transfer) : Call Int32 := do
  let file ← fdtableAt fd.toInt
  refuse (file = null ∨ buf = null ∨ size = 0) ebadf
  transferLocked fd.toInt size transfer

/-- `sys_write`. Its `uio_iov` is allocated. -/
def sysWrite (fd : Int32) (buf : Pointer) (size : UInt32) (transfer : Transfer) : Call Int32 := do
  refuse (buf = null) efault
  let file ← fdtableAt fd.toInt
  refuse (file = null) ebadf
  transferLocked fd.toInt size transfer

/-- What happens around `sys_close`: whether the lock is obtained, whether `kfree`
takes the two pointers it is given, whether a thread waits for the lock, and
whether the thread is still on the CPU it took the lock on. -/
structure Closing where
  obtained : Bool
  kfree : Bool
  waiters : Bool
  sameCpu : Bool

/-- `sys_close`. The lock goes with the last reference. -/
def sysClose (fd : Int32) (closing : Closing) : Call Int32 := do
  let file ← fdtableAt fd.toInt
  refuse (file = null) ebadf
  let locked ← fdescAt fd.toInt
  lockAcquire locked.fdlock closing.obtained
  setField fd.toInt fun file => { file with refcount := file.refcount - 1 }
  let counted ← fdescAt fd.toInt
  if counted.refcount = 0 then
    let unlocked ← fdescAt fd.toInt
    require (closing.kfree = true) .assertion
    lockDestroy unlocked.fdlock closing.waiters
    setFdtable fd.toInt null
    pure 0
  else
    let unlocked ← fdescAt fd.toInt
    lockRelease unlocked.fdlock closing.sameCpu
    pure 0

/-- What happens around `sys_waitpid`: the process table when `P` returns, if it
does, and whether the exit code can be stored at the user's address. -/
structure Waiting where
  returned : Option (Int → Pointer)
  stored : Bool

/-- `P` on the semaphore of a child. The table may have changed when it returns. -/
def waitChildsem (sem : Pointer) (waiting : Waiting) : Call PUnit := do
  require (sem ≠ null) .assertion
  require (waiting.returned.isSome = true) .waits
  change fun kernel =>
    { kernel with procArray := waiting.returned.getD kernel.procArray }

def sysWaitpid (pid : Int32) (waiting : Waiting) : Call Int32 := do
  let child ← procArrayAt pid.toInt
  refuse (child = null) (-1)
  let waited ← procArrayAt pid.toInt
  let process ← inspect fun kernel => kernel.proc waited
  waitChildsem process.pChildsem waiting
  let ended ← procArrayAt pid.toInt
  require (ended ≠ null) .fault
  require (waiting.stored = true) .fault
  pure pid

/-- What the calls made by `sys_fork` return: the memory for the structure, the
trapframe, the name and the argument of the child, what `as_copy` leaves in its
result, the two semaphores, whether `proc_Lock` is obtained, and whether the
thread is still on the CPU it took the lock on. -/
structure Forking where
  obtained : Bool
  newproc : Pointer
  newtf : Pointer
  newas : Pointer
  pName : Pointer
  parsem : Pointer
  childsem : Pointer
  info : Pointer
  sameCpu : Bool

/-- The structure `sys_fork` fills in, from what the memory held. -/
def childProcess (forking : Forking) (pid : Nat) (parent memory : Process) : Process :=
  { memory with
    pName := forking.pName
    pId := Int32.ofNat pid
    pNumthreads := 1
    pAddrspace := forking.newas
    pCwd := parent.pCwd
    pParent := parent.pId
    pParsem := forking.parsem
    pChildsem := forking.childsem
    pChildren := memsetChildren memory.pChildren }

/-- The search for a pid in `sys_fork`. -/
def findPid : Call Nat :=
  search pidFree (fun pid => [.process pid]) 1 (pidMax - 1)

theorem run_find_pid : (findPid >>= second) kernel =
      second ((scan (pidFree kernel) 1 (pidMax - 1)).getD pidMax)
        (record (searched (pidFree kernel) (fun pid => [.process pid]) 1 (pidMax - 1)) kernel) :=
  run_bind_done (search_run pidFree (fun _ _ => rfl) 1 (pidMax - 1) kernel)

/-- The search for the end of the parent's list of children. -/
def findChild : Call Nat :=
  search childFree (fun _ => []) 0 pidMax

theorem run_find_child : (findChild >>= second) kernel =
      second ((scan (childFree kernel) 0 pidMax).getD pidMax)
        (record (searched (childFree kernel) (fun _ => []) 0 pidMax) kernel) :=
  run_bind_done (search_run childFree (fun _ _ => rfl) 0 pidMax kernel)

def sysFork (forking : Forking) : Call Int32 := do
  let lock ← inspect Kernel.procLock
  lockAcquire lock forking.obtained
  require (forking.newtf ≠ null) .fault
  require (forking.newproc ≠ null) .fault
  require (forking.pName ≠ null) .fault
  let pid ← findPid
  refuse (pid = pidMax) enproc
  setProcArray pid forking.newproc
  change fun kernel =>
    { kernel with
      proc := update kernel.proc forking.newproc
        (childProcess forking pid kernel.curproc (kernel.proc forking.newproc)) }
  let index ← findChild
  refuse (index = pidMax) enproc
  change fun kernel =>
    { kernel with
      curproc := { kernel.curproc with
        pChildren := update kernel.curproc.pChildren index pid } }
  require (forking.info ≠ null) .fault
  lockRelease lock forking.sameCpu
  pure (Int32.ofNat pid)

/-- One of the standard files `runprogram` opens: the memory for the object, its
name and flags, the vnode variable after `vfs_open`, and the lock. -/
structure Standard where
  file : Pointer
  fname : Pointer
  flags : Int32
  vn : Pointer
  lockCreate : Pointer

/-- What the calls made by `runprogram` return: `lock_create`, whether `proc_Lock`
is obtained, `vfs_open` on the program, `as_create`, `load_elf`, the standard
files, `as_define_stack`, the two semaphores, and whether the thread is still on
the CPU it took the lock on. -/
structure Starting where
  lockCreate : Pointer
  obtained : Bool
  vfsOpen : Int32
  asCreate : Pointer
  loadElf : Int32
  fin : Standard
  fout : Standard
  ferr : Standard
  asDefineStack : Int32
  parsem : Pointer
  childsem : Pointer
  sameCpu : Bool

/-- One standard file of `runprogram`. The `offset` is not set. -/
def openStandard (fd : Int) (standard : Standard) : Call PUnit := do
  setFdtable fd standard.file
  require (standard.file ≠ null) .fault
  setField fd fun file => { file with fname := standard.fname }
  setField fd fun file => { file with flags := standard.flags }
  setField fd fun file => { file with vn := standard.vn }
  setField fd fun file => { file with fdlock := standard.lockCreate }
  setField fd fun file => { file with refcount := 1 }
  let _ ← fdescAt fd
  pure PUnit.unit

/-- `runprogram` from the standard files on. -/
def enterProgram (starting : Starting) (lock : Pointer) : Call Int32 := do
  openStandard 0 starting.fin
  openStandard 1 starting.fout
  openStandard 2 starting.ferr
  refuse (starting.asDefineStack ≠ 0) starting.asDefineStack
  change fun kernel =>
    { kernel with curproc := { kernel.curproc with
        pParsem := starting.parsem
        pChildsem := starting.childsem
        pChildren := memsetChildren kernel.curproc.pChildren } }
  lockRelease lock starting.sameCpu
  halt .userMode

/-- The lock `runprogram` takes: `proc_Lock`, or a new one. -/
def programLock (kernel : Kernel) (starting : Starting) : Pointer :=
  if kernel.procLock = null then starting.lockCreate else kernel.procLock

/-- `runprogram`. It returns only with an error. -/
def runprogram (starting : Starting) : Call Int32 := do
  change fun kernel => { kernel with procLock := programLock kernel starting }
  let lock ← inspect Kernel.procLock
  lockAcquire lock starting.obtained
  refuse (starting.vfsOpen ≠ 0) starting.vfsOpen
  let process ← inspect Kernel.curproc
  require (process.pAddrspace = null) .assertion
  refuse (starting.asCreate = null) enomem
  change fun kernel =>
    { kernel with curproc := { kernel.curproc with pAddrspace := starting.asCreate } }
  refuse (starting.loadElf ≠ 0) starting.loadElf
  enterProgram starting lock

/-- The calls, each with its arguments and what happens around it. -/
inductive Syscall
  | sysOpen (filename : Pointer) (flags : Int32) (opening : Opening)
  | sysRead (fd : Int32) (buf : Pointer) (size : UInt32) (transfer : Transfer)
  | sysWrite (fd : Int32) (buf : Pointer) (size : UInt32) (transfer : Transfer)
  | sysClose (fd : Int32) (closing : Closing)
  | sysWaitpid (pid : Int32) (waiting : Waiting)
  | sysFork (forking : Forking)
  | runprogram (starting : Starting)

/-- The program of a call. -/
def Syscall.program : Syscall → Call Int32
  | .sysOpen filename flags opening => Calls.sysOpen filename flags opening
  | .sysRead fd buf size transfer => Calls.sysRead fd buf size transfer
  | .sysWrite fd buf size transfer => Calls.sysWrite fd buf size transfer
  | .sysClose fd closing => Calls.sysClose fd closing
  | .sysWaitpid pid waiting => Calls.sysWaitpid pid waiting
  | .sysFork forking => Calls.sysFork forking
  | .runprogram starting => Calls.runprogram starting

end Os161.Proc.Calls
