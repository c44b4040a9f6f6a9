import Os161.Proc.ProcTable

/-!
# Forking, waiting and exiting, one access at a time

`sys_fork`, `sys_waitpid` and `sys__exit` run in many processes at once, and only
`sys_fork` takes `proc_Lock`. A step is therefore one access of a process to what it
shares with the others: an entry of `proc_Array`, a field of another process, a
semaphore. `P` and `V` hold the spinlock of their semaphore and are single steps, except
that `P` goes to sleep when the count is zero and looks again after `V` has woken it.

Semaphores are named by the process they were made for, so a name is never used for a
second object. A pointer that is not to such an object is wild. A step that follows a
clear entry, or one that has become another process's, or that touches a semaphore that
has been freed, records a misuse, and the run ends there.
-/
namespace Os161.Proc.ExitWait

open Os161.Library.Runs Function
open Os161.Proc.ProcTable (pidMax scan memsetChildren entryAt)

variable {Addr : Type}

/-- The system call numbers of `kern/syscall.h`. -/
def callFork : BitVec 32 := 0#32

def callExit : BitVec 32 := 3#32

def callWaitpid : BitVec 32 := 4#32

def enproc : BitVec 32 := 12#32

/-- The registers a system call reads and writes, and the others. -/
structure Trapframe where
  v0 : BitVec 32
  a0 : BitVec 32
  a1 : BitVec 32
  a2 : BitVec 32
  a3 : BitVec 32
  epc : BitVec 32
  others : Nat → BitVec 32

/-- How `syscall` leaves the registers after a success. -/
def Trapframe.succeed (tf : Trapframe) (retval : BitVec 32) : Trapframe :=
  { tf with v0 := retval, a3 := 0#32, epc := tf.epc + 4#32 }

/-- How `syscall` leaves the registers after an error. -/
def Trapframe.error (tf : Trapframe) (err : BitVec 32) : Trapframe :=
  { tf with v0 := err, a3 := 1#32, epc := tf.epc + 4#32 }

/-- The two semaphores of a process. -/
inductive Sem (Addr : Type)
  | parsem (owner : Addr)
  | childsem (owner : Addr)
deriving DecidableEq

/-- A semaphore that has not been made yet, one with its count and the threads asleep on
its channel, and one that has been freed. -/
inductive Semaphore (Addr : Type)
  | absent
  | live (count : Nat) (sleepers : List Addr)
  | freed

/-- Where a process is. -/
inductive Place (Addr : Type)
  /-- it has no thread yet -/
  | unborn
  | user
  /-- `sys_fork` has allocated the structure -/
  | forkCalled (child : Addr)
  /-- it has `proc_Lock` and looks for a free entry -/
  | forkScan (child : Addr) (index : Nat)
  /-- the child is in the table -/
  | forkEntered (child : Addr) (pid : Nat)
  /-- its semaphore pointers are to new memory -/
  | forkAllocated (child : Addr) (pid : Nat)
  /-- its semaphores exist -/
  | forkCreated (child : Addr) (pid : Nat)
  /-- it is in its parent's list -/
  | forkListed (child : Addr) (pid : Nat)
  /-- `proc_Lock` has been released -/
  | forkUnlocked (child : Addr) (pid : Nat)
  /-- `sys_waitpid` has found an entry -/
  | waitChecked (pid : Nat) (entry : Addr)
  /-- it has read the entry again -/
  | waitEntry (pid : Nat) (entry : Addr)
  /-- it has read the entry's `p_childsem` and is in `P` -/
  | waitSem (pid : Nat) (entry : Addr) (sem : Option (Sem Addr))
  /-- `P` has returned -/
  | waitWoken (pid : Nat) (entry : Addr)
  /-- it has read the entry a third time -/
  | waitFound (pid : Nat) (entry : Addr)
  /-- `sys__exit` has stored the exit code -/
  | exitCalled
  /-- it has raised its `p_childsem` and is in `P` on its `p_parsem` -/
  | exitPosted
  /-- its parent has let it go -/
  | exitLet
  /-- its entry is clear, and it is at this index of its children -/
  | exitLoop (index : Nat)
  /-- it has read the entry of that child -/
  | exitEntry (index : Nat) (entry : Addr)
  /-- it has read the child's `p_parsem` and is in `V` -/
  | exitSem (index : Nat) (sem : Option (Sem Addr))
  /-- all children have been let go -/
  | exitWoken
  /-- its `p_parsem` has been freed -/
  | exitFreed
  /-- both have been freed, and the thread is gone -/
  | gone
deriving DecidableEq

/-- The fields of a process structure the three calls use, the registers and the memory
of the program, and the pids and structures of the children in its list, in order. -/
structure Process (Addr : Type) where
  pId : Int
  pExitcode : BitVec 32
  pChildren : Nat → Int
  pParsem : Option (Sem Addr)
  pChildsem : Option (Sem Addr)
  tf : Trapframe
  memory : BitVec 32 → BitVec 8
  offspring : List (Nat × Addr)
  place : Place Addr

/-- What a step can do wrong: use an entry of `proc_Array` that has been cleared, use a
semaphore that has been freed, or follow something that never was a pointer or an index. -/
inductive Misuse
  | entry
  | freed
  | wild
deriving DecidableEq

/-- The process structures, `proc_Array`, the semaphores, the holder of `proc_Lock`,
which processes sleep, whose call of `sys_fork` allocated which structure, and the misuse
that ended the run. -/
structure State (Addr : Type) where
  procs : Addr → Option (Process Addr)
  procArray : Nat → Option Addr
  sems : Sem Addr → Semaphore Addr
  lock : Option Addr
  asleep : Addr → Bool
  forkedBy : Addr → Option Addr
  misuse : Option Misuse

/-- A program is started from the menu in a new structure; a program runs in user mode;
it traps, with the structure a fork would get; a process takes its next step in the
kernel; and a fork ends in `thread_fork`, which makes a thread or does not. -/
inductive Action (Addr : Type)
  | runprogram (addr : Addr) (raw : Process Addr)
  | user (addr : Addr) (tf : Trapframe) (memory : BitVec 32 → BitVec 8)
  | trap (addr child : Addr) (raw : Process Addr)
  | run (addr : Addr)
  | threadFork (addr : Addr) (succeeds : Bool)

/-- No process, an empty table, and nobody has the lock. -/
structure Initial (state : State Addr) : Prop where
  procs : ∀ addr, state.procs addr = none
  procArray : ∀ pid, state.procArray pid = none
  sems : ∀ sem, state.sems sem = .absent
  lock : state.lock = none
  forkedBy : ∀ addr, state.forkedBy addr = none
  misuse : state.misuse = none

variable {process : Process Addr} {state after : State Addr} {addr child : Addr}
  {action : Action Addr}

section

variable [DecidableEq Addr]

section

variable (state : State Addr) (addr : Addr) (process : Process Addr)

/-- A process structure is written. -/
def State.put : State Addr :=
  { state with procs := update state.procs addr (some process) }

/-- A process is somewhere else. -/
def State.goes (place : Place Addr) : State Addr :=
  state.put addr { process with place := place }

/-- A process is back in user mode. -/
def State.returns (tf : Trapframe) : State Addr :=
  state.put addr { process with tf := tf, place := .user }

def State.misused (state : State Addr) (misuse : Misuse) : State Addr :=
  { state with misuse := some misuse }

/-- A semaphore gets another value, and a process goes on. -/
def State.uses (place : Place Addr) (sem : Sem Addr) (value : Semaphore Addr)
    (asleep : Addr → Bool) : State Addr :=
  { state.goes addr process place with sems := update state.sems sem value, asleep := asleep }

/-- A pointer to a semaphore is followed. -/
def useSem (state : State Addr) (sem : Option (Sem Addr))
    (use : Sem Addr → Nat → List Addr → State Addr) : State Addr :=
  match sem with
  | none => state.misused .wild
  | some sem => match state.sems sem with
    | .absent => state.misused .wild
    | .freed => state.misused .freed
    | .live count sleepers => use sem count sleepers

/-- One pass of the loop of `P`. -/
def semP (sem : Option (Sem Addr)) (place : Place Addr) : State Addr :=
  useSem state sem fun sem count sleepers => match count with
    | 0 =>
      { state with
        sems := update state.sems sem (.live 0 (sleepers ++ [addr]))
        asleep := update state.asleep addr true }
    | count + 1 => state.uses addr process place sem (.live count sleepers) state.asleep

/-- `wchan_wakeone`. -/
def wakeone (asleep : Addr → Bool) : List Addr → Addr → Bool
  | [] => asleep
  | sleeper :: _ => update asleep sleeper false

/-- `V`. -/
def semV (sem : Option (Sem Addr)) (place : Place Addr) : State Addr :=
  useSem state sem fun sem count sleepers =>
    state.uses addr process place sem (.live (count + 1) sleepers.tail)
      (wakeone state.asleep sleepers)

/-- `kfree` of a semaphore. -/
def freeSem (sem : Option (Sem Addr)) (place : Place Addr) : State Addr :=
  useSem state sem fun sem _ _ => state.uses addr process place sem .freed state.asleep

/-- `proc_Array[pid]` is read to be followed, by a process that means a certain structure. -/
def useEntry (pid : Int) (meant : Addr) (place : Place Addr) : State Addr :=
  if 0 ≤ pid ∧ pid < pidMax then
    if state.procArray pid.toNat = some meant then state.goes addr process place
    else state.misused .entry
  else state.misused .wild

end

/-- A structure has its semaphores, and the first of its `p_children` are set. -/
def Process.made (process : Process Addr) (addr : Addr) : Process Addr :=
  { process with
    pChildren := memsetChildren process.pChildren
    pParsem := some (.parsem addr)
    pChildsem := some (.childsem addr) }

/-- `runprogram`, for a structure from `proc_create`, whose pid is what the memory held. -/
def runprogram (state : State Addr) (addr : Addr) (raw : Process Addr) : State Addr :=
  { state.put addr { raw.made addr with offspring := [], place := .user } with
    sems := update (update state.sems (.parsem addr) (.live 1 [])) (.childsem addr) (.live 0 []) }

section

variable (state : State Addr) (addr child : Addr) (process : Process Addr)

/-- `sys_fork` up to `lock_acquire`: the structure is allocated, with whatever is in its
memory. The registers are those the child will start with. -/
def forkCall (raw : Process Addr) : State Addr :=
  { (state.put child { raw with
      tf := process.tf.succeed 0#32
      offspring := []
      place := .unborn }).goes addr process (.forkCalled child) with
    forkedBy := update state.forkedBy child (some addr) }

/-- The child gets a free entry of `proc_Array`. -/
def forkEnter (created : Process Addr) (index : Nat) : State Addr :=
  { (state.put child { created with pId := index }).goes addr process
      (.forkEntered child index) with
    procArray := update state.procArray index (some child) }

/-- The loop of `sys_fork` over `proc_Array`. Nobody else sets an entry while the lock is
held, so a free one is taken as it is found. -/
def forkScan (created : Process Addr) (index : Nat) : State Addr :=
  if index < pidMax then
    match state.procArray index with
    | some _ => state.goes addr process (.forkScan child (index + 1))
    | none => forkEnter state addr child process created index
  else state.returns addr process (process.tf.error enproc)

/-- The two calls of `kmalloc` for the child's semaphores. -/
def forkAllocate (created : Process Addr) (pid : Nat) : State Addr :=
  (state.put child { created with pParsem := none, pChildsem := none }).goes addr process
    (.forkAllocated child pid)

/-- The semaphores of the child are made. -/
def forkCreate (created : Process Addr) (pid : Nat) : State Addr :=
  { (state.put child (created.made child)).goes addr process (.forkCreated child pid) with
    sems := update (update state.sems (.parsem child) (.live 0 [])) (.childsem child) (.live 0 []) }

/-- A process with another child in its list. -/
def Process.lists (process : Process Addr) (child : Addr) (pid index : Nat) : Process Addr :=
  { process with
    pChildren := update process.pChildren index pid
    offspring := process.offspring ++ [(pid, child)]
    place := .forkListed child pid }

/-- The child is entered in the first free place of its parent's list. The return for a
full list keeps the lock. -/
def forkList (pid : Nat) : State Addr :=
  match scan (fun index => process.pChildren index == -1) 0 pidMax with
  | none => state.returns addr process (process.tf.error enproc)
  | some index => state.put addr (process.lists child pid index)

/-- `thread_fork`, whose result is ignored. -/
def forkEnd (created : Process Addr) (pid : Nat) (succeeds : Bool) : State Addr :=
  (state.put child { created with place := if succeeds then .user else .unborn }).returns addr
    process (process.tf.succeed (BitVec.ofNat 32 pid))

end

section

variable (state : State Addr) (addr : Addr) (process : Process Addr)

/-- The first check of `sys_waitpid`. -/
def waitCheck : State Addr :=
  if 0 ≤ process.tf.a0.toInt ∧ process.tf.a0.toInt < pidMax then
    match state.procArray process.tf.a0.toInt.toNat with
    | none => state.returns addr process (process.tf.error 0xffffffff#32)
    | some entry => state.goes addr process (.waitChecked process.tf.a0.toInt.toNat entry)
  else state.misused .wild

/-- The end of `sys_waitpid`. The dispatcher passes the address of the saved register
`a1`, not its value, so that is where the exit code goes. -/
def waitEnd (exited : Process Addr) (pid : Nat) : State Addr :=
  state.returns addr process
    ({ process.tf with a1 := exited.pExitcode }.succeed (BitVec.ofNat 32 pid))

/-- An entry is cleared, and an exiting process goes to its children. -/
def State.clears (index : Nat) : State Addr :=
  { state.goes addr process (.exitLoop 0) with procArray := update state.procArray index none }

/-- The entry of an exiting process is cleared. -/
def exitClear : State Addr :=
  if 0 ≤ process.pId ∧ process.pId < pidMax then state.clears addr process process.pId.toNat
  else state.misused .wild

/-- The loop of `sys__exit` over the children, up to where it has read an entry. -/
def exitLoop (index : Nat) : State Addr :=
  if index < pidMax then
    if process.pChildren index = -1 then state.goes addr process .exitWoken
    else match process.offspring[index]? with
      | none => state.misused .wild
      | some (_, child) =>
        useEntry state addr process (process.pChildren index) child (.exitEntry index child)
  else state.misused .wild

/-- The dispatcher, for the three calls. -/
def syscall (state : State Addr) (addr child : Addr) (process raw : Process Addr) :
    Option (State Addr) :=
  if process.tf.v0 = callFork then
    if (state.procs child).isNone then some (forkCall state addr child process raw) else none
  else if process.tf.v0 = callWaitpid then some (waitCheck state addr process)
  else if process.tf.v0 = callExit then
    some (state.put addr { process with pExitcode := process.tf.a0, place := .exitCalled })
  else none

/-- The next step of a process in the kernel. -/
def resume : Option (State Addr) :=
  match process.place with
  | .unborn | .user => none
  | .forkCalled child =>
    if state.lock.isNone then
      some { state.goes addr process (.forkScan child 1) with lock := some addr }
    else none
  | .forkScan child index =>
    (state.procs child).map (fun created => forkScan state addr child process created index)
  | .forkEntered child pid =>
    (state.procs child).map (fun created => forkAllocate state addr child process created pid)
  | .forkAllocated child pid =>
    (state.procs child).map (fun created => forkCreate state addr child process created pid)
  | .forkCreated child pid => some (forkList state addr child process pid)
  | .forkListed child pid =>
    some { state.goes addr process (.forkUnlocked child pid) with lock := none }
  | .forkUnlocked _ _ => none
  | .waitChecked pid entry => some (useEntry state addr process pid entry (.waitEntry pid entry))
  | .waitEntry pid entry =>
    (state.procs entry).map (fun child =>
      state.goes addr process (.waitSem pid entry child.pChildsem))
  | .waitSem pid entry sem => some (semP state addr process sem (.waitWoken pid entry))
  | .waitWoken pid entry => some (useEntry state addr process pid entry (.waitFound pid entry))
  | .waitFound pid entry =>
    (state.procs entry).map (fun child => waitEnd state addr process child pid)
  | .exitCalled => some (semV state addr process process.pChildsem .exitPosted)
  | .exitPosted => some (semP state addr process process.pParsem .exitLet)
  | .exitLet => some (exitClear state addr process)
  | .exitLoop index => some (exitLoop state addr process index)
  | .exitEntry index entry =>
    (state.procs entry).map (fun child => state.goes addr process (.exitSem index child.pParsem))
  | .exitSem index sem => some (semV state addr process sem (.exitLoop (index + 1)))
  | .exitWoken => some (freeSem state addr process process.pParsem .exitFreed)
  | .exitFreed => some (freeSem state addr process process.pChildsem .gone)
  | .gone => none

end

/-- The transition function. -/
def next (state : State Addr) (action : Action Addr) : Option (State Addr) :=
  if state.misuse.isSome then none else
  match action with
  | .runprogram addr raw =>
    if (state.procs addr).isNone ∧ state.lock.isNone then some (runprogram state addr raw) else none
  | .user addr tf memory => do
    let process ← state.procs addr
    if process.place = .user then some (state.put addr { process with tf := tf, memory := memory })
    else none
  | .trap addr child raw => do
    let process ← state.procs addr
    if process.place = .user then syscall state addr child process raw else none
  | .run addr => do
    let process ← state.procs addr
    if state.asleep addr then none else resume state addr process
  | .threadFork addr succeeds => do
    let process ← state.procs addr
    match process.place with
    | .forkUnlocked child pid =>
      (state.procs child).map (fun created =>
        forkEnd state addr child process created pid succeeds)
    | _ => none

/-- A process goes on without changing a semaphore or the table. -/
inductive Turn (state : State Addr) (addr : Addr) (process : Process Addr) :
    Action Addr → Process Addr → Prop
  | user {tf : Trapframe} {memory : BitVec 32 → BitVec 8} (was : process.place = .user) :
      Turn state addr process (.user addr tf memory) { process with tf := tf, memory := memory }
  | waitNone {other : Addr} {raw : Process Addr} (was : process.place = .user) :
      Turn state addr process (.trap addr other raw)
        { process with tf := process.tf.error 0xffffffff#32, place := .user }
  | waitCheck {other : Addr} {raw : Process Addr} {pid : Nat} {entry : Addr} (was : process.place = .user)
      (number : process.tf.v0 = callWaitpid) (argument : process.tf.a0.toInt = pid)
      (inside : pid < pidMax) (found : state.procArray pid = some entry) :
      Turn state addr process (.trap addr other raw) { process with place := .waitChecked pid entry }
  | exit {other : Addr} {raw : Process Addr} (was : process.place = .user)
      (number : process.tf.v0 = callExit) :
      Turn state addr process (.trap addr other raw)
        { process with pExitcode := process.tf.a0, place := .exitCalled }
  | lock {child : Addr} (was : process.place = .forkCalled child) :
      Turn state addr process (.run addr) { process with place := .forkScan child 1 }
  | scan {child : Addr} {index : Nat} (was : process.place = .forkScan child index) :
      Turn state addr process (.run addr) { process with place := .forkScan child (index + 1) }
  | full {child : Addr} {index : Nat} (was : process.place = .forkScan child index) :
      Turn state addr process (.run addr) { process with tf := process.tf.error enproc, place := .user }
  | listFull {child : Addr} {pid : Nat} (was : process.place = .forkCreated child pid)
      (full : ProcTable.scan (fun index => process.pChildren index == -1) 0 pidMax = none) :
      Turn state addr process (.run addr) { process with tf := process.tf.error enproc, place := .user }
  | unlock {child : Addr} {pid : Nat} (was : process.place = .forkListed child pid) :
      Turn state addr process (.run addr) { process with place := .forkUnlocked child pid }
  | checked {pid : Nat} {entry : Addr} (was : process.place = .waitChecked pid entry) :
      Turn state addr process (.run addr) { process with place := .waitEntry pid entry }
  | childsem {pid : Nat} {entry : Addr} {child : Process Addr}
      (was : process.place = .waitEntry pid entry) (found : state.procs entry = some child) :
      Turn state addr process (.run addr) { process with place := .waitSem pid entry child.pChildsem }
  | found {pid : Nat} {entry : Addr} (was : process.place = .waitWoken pid entry) :
      Turn state addr process (.run addr) { process with place := .waitFound pid entry }
  | status {pid : Nat} {entry : Addr} {child : Process Addr}
      (was : process.place = .waitFound pid entry) (found : state.procs entry = some child) :
      Turn state addr process (.run addr) { process with
        tf := { process.tf with a1 := child.pExitcode }.succeed (BitVec.ofNat 32 pid)
        place := .user }
  | loop {index pid : Nat} {entry : Addr} (was : process.place = .exitLoop index)
      (listed : process.offspring[index]? = some (pid, entry)) :
      Turn state addr process (.run addr) { process with place := .exitEntry index entry }
  | loopEnd {index : Nat} (was : process.place = .exitLoop index)
      (ends : process.pChildren index = -1) :
      Turn state addr process (.run addr) { process with place := .exitWoken }
  | parsem {index : Nat} {entry : Addr} {child : Process Addr}
      (was : process.place = .exitEntry index entry) (found : state.procs entry = some child) :
      Turn state addr process (.run addr) { process with place := .exitSem index child.pParsem }

/-- The two calls of `P`: the semaphore, and where the process is when it has got it. -/
inductive Waits (process : Process Addr) : Sem Addr → Place Addr → Prop
  | child {pid : Nat} {entry : Addr} {sem : Sem Addr}
      (was : process.place = .waitSem pid entry (some sem)) : Waits process sem (.waitWoken pid entry)
  | parent {sem : Sem Addr} (was : process.place = .exitPosted)
      (own : process.pParsem = some sem) : Waits process sem .exitLet

/-- The two calls of `V`. -/
inductive Posts (process : Process Addr) : Sem Addr → Place Addr → Prop
  | own {sem : Sem Addr} (was : process.place = .exitCalled)
      (own : process.pChildsem = some sem) : Posts process sem .exitPosted
  | child {index : Nat} {sem : Sem Addr} (was : process.place = .exitSem index (some sem)) :
      Posts process sem (.exitLoop (index + 1))

/-- The two calls of `kfree`. -/
inductive Frees (process : Process Addr) : Sem Addr → Place Addr → Prop
  | parent {sem : Sem Addr} (was : process.place = .exitWoken)
      (own : process.pParsem = some sem) : Frees process sem .exitFreed
  | child {sem : Sem Addr} (was : process.place = .exitFreed)
      (own : process.pChildsem = some sem) : Frees process sem .gone

/-- Everything a step can do. -/
inductive Step (state : State Addr) : Action Addr → State Addr → Prop
  | misused {action : Action Addr} (misuse : Misuse) : Step state action (state.misused misuse)
  | turned {action : Action Addr} {addr : Addr} {process after : Process Addr} (lock : Option Addr)
      (found : state.procs addr = some process) (turn : Turn state addr process action after) :
      Step state action { state.put addr after with lock := lock }
  | slept {addr : Addr} {process : Process Addr} {sem : Sem Addr} {place : Place Addr}
      {sleepers : List Addr} (found : state.procs addr = some process)
      (live : state.sems sem = .live 0 sleepers) (waits : Waits process sem place) :
      Step state (.run addr) { state with
        sems := update state.sems sem (.live 0 (sleepers ++ [addr]))
        asleep := update state.asleep addr true }
  | taken {addr : Addr} {process : Process Addr} {sem : Sem Addr} {place : Place Addr}
      {count : Nat} {sleepers : List Addr} (found : state.procs addr = some process)
      (live : state.sems sem = .live (count + 1) sleepers) (waits : Waits process sem place) :
      Step state (.run addr)
        (state.uses addr process place sem (.live count sleepers) state.asleep)
  | posted {addr : Addr} {process : Process Addr} {sem : Sem Addr} {place : Place Addr}
      {count : Nat} {sleepers : List Addr} (found : state.procs addr = some process)
      (live : state.sems sem = .live count sleepers) (posts : Posts process sem place) :
      Step state (.run addr) (state.uses addr process place sem (.live (count + 1) sleepers.tail)
        (wakeone state.asleep sleepers))
  | freed {addr : Addr} {process : Process Addr} {sem : Sem Addr} {place : Place Addr}
      {count : Nat} {sleepers : List Addr} (found : state.procs addr = some process)
      (live : state.sems sem = .live count sleepers) (frees : Frees process sem place) :
      Step state (.run addr) (state.uses addr process place sem .freed state.asleep)
  | cleared {addr : Addr} {process : Process Addr} (found : state.procs addr = some process)
      (was : process.place = .exitLet) (inside : 0 ≤ process.pId ∧ process.pId < pidMax) :
      Step state (.run addr) (state.clears addr process process.pId.toNat)
  | started {addr : Addr} {raw : Process Addr} (fresh : state.procs addr = none) :
      Step state (.runprogram addr raw) (runprogram state addr raw)
  | called {addr child : Addr} {process raw : Process Addr}
      (found : state.procs addr = some process) (was : process.place = .user)
      (number : process.tf.v0 = callFork) (fresh : state.procs child = none) :
      Step state (.trap addr child raw) (forkCall state addr child process raw)
  | entered {addr child : Addr} {process created : Process Addr} {index : Nat}
      (found : state.procs addr = some process) (was : process.place = .forkScan child index)
      (born : state.procs child = some created) (inside : index < pidMax)
      (free : state.procArray index = none) :
      Step state (.run addr) (forkEnter state addr child process created index)
  | allocated {addr child : Addr} {process created : Process Addr} {pid : Nat}
      (found : state.procs addr = some process) (was : process.place = .forkEntered child pid)
      (born : state.procs child = some created) :
      Step state (.run addr) (forkAllocate state addr child process created pid)
  | created {addr child : Addr} {process created : Process Addr} {pid : Nat}
      (found : state.procs addr = some process) (was : process.place = .forkAllocated child pid)
      (born : state.procs child = some created) :
      Step state (.run addr) (forkCreate state addr child process created pid)
  | listed {addr child : Addr} {process : Process Addr} {pid index : Nat}
      (found : state.procs addr = some process) (was : process.place = .forkCreated child pid)
      (room : scan (fun index => process.pChildren index == -1) 0 pidMax = some index) :
      Step state (.run addr) (state.put addr (process.lists child pid index))
  | ended {addr child : Addr} {process created : Process Addr} {pid : Nat} {succeeds : Bool}
      (found : state.procs addr = some process) (was : process.place = .forkUnlocked child pid)
      (born : state.procs child = some created) :
      Step state (.threadFork addr succeeds) (forkEnd state addr child process created pid succeeds)

theorem Step.goes {place : Place Addr} (found : state.procs addr = some process)
    (turn : Turn state addr process action { process with place := place }) :
    Step state action (state.goes addr process place) :=
  .turned state.lock found turn

theorem Step.returns {tf : Trapframe} (found : state.procs addr = some process)
    (turn : Turn state addr process action { process with tf := tf, place := .user }) :
    Step state action (state.returns addr process tf) :=
  .turned state.lock found turn

theorem use_entry_cases {pid : Int} (meant : Addr) {place : Place Addr}
    (found : state.procs addr = some process)
    (turn : Turn state addr process action { process with place := place }) :
    Step state action (useEntry state addr process pid meant place) := by
  unfold useEntry
  split
  · split
    · exact Step.goes found turn
    · exact .misused .entry
  · exact .misused .wild

section

variable {sem : Option (Sem Addr)} {place : Place Addr}

theorem use_sem_cases {use : Sem Addr → Nat → List Addr → State Addr}
    (used : ∀ pointee count sleepers, sem = some pointee →
      state.sems pointee = .live count sleepers → Step state action (use pointee count sleepers)) :
    Step state action (useSem state sem use) := by
  unfold useSem
  split
  · exact .misused .wild
  · split
    · exact .misused .wild
    · exact .misused .freed
    · rename_i count sleepers live
      exact used _ count sleepers rfl live

variable (found : state.procs addr = some process)

include found

theorem sem_p_cases (waits : ∀ {pointee}, sem = some pointee → Waits process pointee place) :
    Step state (.run addr) (semP state addr process sem place) := by
  refine use_sem_cases fun _ count _ aims live => ?_
  cases count with
  | zero => exact .slept found live (waits aims)
  | succ count => exact .taken found live (waits aims)

theorem sem_v_cases (posts : ∀ {pointee}, sem = some pointee → Posts process pointee place) :
    Step state (.run addr) (semV state addr process sem place) :=
  use_sem_cases fun _ _ _ aims live => .posted found live (posts aims)

theorem free_sem_cases (frees : ∀ {pointee}, sem = some pointee → Frees process pointee place) :
    Step state (.run addr) (freeSem state addr process sem place) :=
  use_sem_cases fun _ _ _ aims live => .freed found live (frees aims)

end

section

variable (found : state.procs addr = some process)

include found

theorem fork_scan_cases {created : Process Addr} {index : Nat}
    (was : process.place = .forkScan child index)
    (born : state.procs child = some created) :
    Step state (.run addr) (forkScan state addr child process created index) := by
  unfold forkScan
  split
  · rename_i inside
    split
    · exact Step.goes found (.scan was)
    · rename_i free
      exact .entered found was born inside free
  · exact Step.returns found (.full was)

theorem fork_list_cases {pid : Nat} (was : process.place = .forkCreated child pid) :
    Step state (.run addr) (forkList state addr child process pid) := by
  unfold forkList
  split
  · rename_i full
    exact Step.returns found (.listFull was full)
  · rename_i index room
    exact .listed found was room

theorem wait_check_cases (other : Addr) (raw : Process Addr) (was : process.place = .user)
    (number : process.tf.v0 = callWaitpid) :
    Step state (.trap addr other raw) (waitCheck state addr process) := by
  unfold waitCheck
  split
  · rename_i inside
    split
    · exact Step.returns found (.waitNone was)
    · rename_i entry present
      exact Step.goes found
        (.waitCheck was number (Int.toNat_of_nonneg inside.1).symm (by omega) present)
  · exact .misused .wild

theorem exit_loop_cases {index : Nat} (was : process.place = .exitLoop index) :
    Step state (.run addr) (exitLoop state addr process index) := by
  unfold exitLoop
  split
  · split
    · rename_i ends
      exact Step.goes found (.loopEnd was ends)
    · split
      · exact .misused .wild
      · rename_i pid child listed
        exact use_entry_cases child found (.loop was listed)
  · exact .misused .wild

theorem exit_clear_cases
    (was : process.place = .exitLet) : Step state (.run addr) (exitClear state addr process) := by
  unfold exitClear
  split
  · rename_i inside
    exact .cleared found was inside
  · exact .misused .wild

/-- What a trap does is a `Step`. One case per call. -/
theorem syscall_cases {raw : Process Addr}
    (was : process.place = .user) (taken : syscall state addr child process raw = some after) :
    Step state (.trap addr child raw) after := by
  unfold syscall at taken
  split at taken
  · rename_i number
    split at taken
    · rename_i fresh
      cases taken
      exact .called found was number (Option.isNone_iff_eq_none.mp fresh)
    · cases taken
  · split at taken
    · rename_i number
      cases taken
      exact wait_check_cases found child raw was number
    · split at taken
      · rename_i number
        cases taken
        exact .turned state.lock found (.exit was number)
      · cases taken

/-- A process that goes on in the kernel does what its place says. One case per place. -/
theorem resume_cases
    (taken : resume state addr process = some after) : Step state (.run addr) after := by
  unfold resume at taken
  split at taken
  case h_1 | h_2 | h_9 | h_23 => cases taken
  case h_3 child was =>
    split at taken
    · cases taken
      exact .turned (some addr) found (.lock was)
    · cases taken
  case h_4 child index was =>
    obtain ⟨created, born, rfl⟩ := Option.map_eq_some_iff.mp taken
    exact fork_scan_cases found was born
  case h_5 child pid was =>
    obtain ⟨created, born, rfl⟩ := Option.map_eq_some_iff.mp taken
    exact .allocated found was born
  case h_6 child pid was =>
    obtain ⟨created, born, rfl⟩ := Option.map_eq_some_iff.mp taken
    exact .created found was born
  case h_7 child pid was =>
    cases taken
    exact fork_list_cases found was
  case h_8 child pid was =>
    cases taken
    exact .turned none found (.unlock was)
  case h_10 pid entry was =>
    obtain rfl := Option.some.inj taken
    exact use_entry_cases entry found (.checked was)
  case h_11 pid entry was =>
    obtain ⟨child, present, rfl⟩ := Option.map_eq_some_iff.mp taken
    exact Step.goes found (.childsem was present)
  case h_12 pid entry sem was =>
    cases taken
    exact sem_p_cases found (fun same => .child (same ▸ was))
  case h_13 pid entry was =>
    obtain rfl := Option.some.inj taken
    exact use_entry_cases entry found (.found was)
  case h_14 pid entry was =>
    obtain ⟨child, present, rfl⟩ := Option.map_eq_some_iff.mp taken
    exact Step.returns found (.status was present)
  case h_15 was =>
    cases taken
    exact sem_v_cases found (.own was)
  case h_16 was =>
    cases taken
    exact sem_p_cases found (.parent was)
  case h_17 was =>
    cases taken
    exact exit_clear_cases found was
  case h_18 index was =>
    cases taken
    exact exit_loop_cases found was
  case h_19 index entry was =>
    obtain ⟨child, present, rfl⟩ := Option.map_eq_some_iff.mp taken
    exact Step.goes found (.parsem was present)
  case h_20 index sem was =>
    cases taken
    exact sem_v_cases found (fun same => .child (same ▸ was))
  case h_21 was =>
    cases taken
    exact free_sem_cases found (.parent was)
  case h_22 was =>
    cases taken
    exact free_sem_cases found (.child was)

end

/-- Everything the transition function does is a `Step`, so invariants are proved over steps. -/
theorem next_cases (taken : next state action = some after) : Step state action after := by
  unfold next at taken
  split at taken
  · cases taken
  cases action with
  | runprogram addr raw =>
    simp only [guard_some] at taken
    obtain ⟨⟨fresh, _⟩, rfl⟩ := taken
    exact .started (Option.isNone_iff_eq_none.mp fresh)
  | user addr tf memory =>
    simp only [Option.bind_eq_bind, Option.bind_eq_some_iff, guard_some] at taken
    obtain ⟨process, found, was, rfl⟩ := taken
    exact .turned state.lock found (.user was)
  | trap addr child raw =>
    simp only [Option.bind_eq_bind, Option.bind_eq_some_iff, Option.ite_none_right_eq_some]
      at taken
    obtain ⟨process, found, was, called⟩ := taken
    exact syscall_cases found was called
  | run addr =>
    simp only [Option.bind_eq_bind, Option.bind_eq_some_iff, Option.ite_none_left_eq_some]
      at taken
    obtain ⟨process, found, _, resumed⟩ := taken
    exact resume_cases found resumed
  | threadFork addr succeeds =>
    simp only [Option.bind_eq_bind, Option.bind_eq_some_iff] at taken
    obtain ⟨process, found, forked⟩ := taken
    split at forked
    · rename_i child pid was
      obtain ⟨created, born, rfl⟩ := Option.map_eq_some_iff.mp forked
      exact .ended found was born
    · cases forked

end

end Os161.Proc.ExitWait
