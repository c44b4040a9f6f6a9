import Os161.Library.Runs
import Mathlib.Data.List.Nodup

/-!
# File tables of processes

Every process has one thread, and the thread structure holds its file table:
`OPEN_MAX` pointers to open-file objects. `runprogram` fills the first three
slots, `sys_open` and `sys_close` change one slot, and `sys_fork` hands the child
a pointer to the parent's table, which the child copies slot by slot when it
comes to run, in `enter_forked_process`.

A system call is one step here and every slot the child copies is a step of its
own. In the source `sys_open` fills the slot before `vfs_open` sleeps and sets the
count after it, `sys_close` counts down first and clears the slot last, and a child
takes no lock. So a child that copies the slot in between, or another child that
counts the same object, sees a call half done. The results on runs leave such calls
out: `ForkSnapshot.Untouched` and `OpenFiles.Tidy`.

Memory is that of the source: `kmalloc` returns any address that is not allocated,
`thread_create` does not clear the table, and the slot after the last one is the
next field of the thread structure. The names of the standard descriptors are on
the stack of `runprogram`, so closing the last reference to one of them panics.
-/
namespace Os161.Proc.FileTable

open Os161.Library.Runs Function

variable {Thread Obj : Type}

/-- The number of slots, `OPEN_MAX`. -/
abbrev openMax : Nat := 128

/-- Where a thread is in its life. A child in `enter_forked_process` has a parent
to copy from and a number of slots it has copied. -/
inductive Phase (Thread : Type)
  | absent
  | starting (parent : Thread) (copied : Nat)
  | running
  | exited
  deriving DecidableEq

/-- The phase of each thread, the words from `t_fdtable` on in its structure, the
`refcount` of the allocated open-file objects, the objects whose vnode is open, and
those whose `fname` is memory from `kmalloc`. The last two fields record history: the table
a child's parent had when it called fork, and the table a child had when it entered user
mode. -/
structure State (Thread Obj : Type) where
  phase : Thread → Phase Thread
  words : Thread → Nat → Option Obj
  refcount : Obj → Option Int
  vnodeOpen : Obj → Bool
  nameOwned : Obj → Bool
  snapshot : Thread → Nat → Option Obj
  entered : Thread → Option (Nat → Option Obj)

/-- How `sys_open` goes: it is refused before it has allocated an object, it
allocates one and `vfs_open` fails, or it succeeds. -/
inductive Opening (Obj : Type)
  | refused
  | vfsFails (file : Obj)
  | succeeds (file : Obj)

/-- A program starts, a running thread makes a system call, a child copies a slot,
or the memory of an exited thread is used for something else. -/
inductive Action (Thread Obj : Type)
  | runprogram (thread : Thread) (fin fout ferr : Obj) (junk : Nat → Option Obj)
  | sysOpen (thread : Thread) (opening : Opening Obj)
  | sysClose (thread : Thread) (fd : Nat)
  | sysFork (parent child : Thread) (junk : Nat → Option Obj)
  | copySlot (child : Thread)
  | sysExit (thread : Thread)
  | reuse (thread : Thread) (junk : Nat → Option Obj)

/-- No program has been started. -/
def Initial (state : State Thread Obj) : Prop :=
  (∀ thread, state.phase thread = .absent) ∧ (∀ file, state.refcount file = none) ∧
    (∀ file, state.vnodeOpen file = false) ∧ ∀ thread, state.entered thread = none

/-- The search for a descriptor in `sys_open`. It stops at the first empty slot,
or one past the table. -/
def findFd (table : Nat → Option Obj) : Nat :=
  ((List.range openMax).find? (fun fd => (table fd).isNone)).getD openMax

/-- Put an object into a slot of a thread. -/
def assign [DecidableEq Thread] (state : State Thread Obj) (thread : Thread) (fd : Nat)
    (reference : Option Obj) : State Thread Obj :=
  { state with
    words := update state.words thread (update (state.words thread) fd reference) }

/-- A new open-file object with its vnode and one reference, and a name from `kmalloc` or not. -/
def allocate [DecidableEq Obj] (state : State Thread Obj) (file : Obj) (owned : Bool) :
    State Thread Obj :=
  { state with
    refcount := update state.refcount file (some 1)
    vnodeOpen := update state.vnodeOpen file true
    nameOwned := update state.nameOwned file owned }

section

variable [DecidableEq Thread] [DecidableEq Obj] (state : State Thread Obj)

/-- `sys_open` by a running thread. The slot is taken before `vfs_open` is called
and is not given back when that fails, although the object is freed. -/
def sysOpen (thread : Thread) : Opening Obj → Option (State Thread Obj)
  | .refused => some state
  | .vfsFails file =>
    if state.refcount file = none then
      some (assign state thread (findFd (state.words thread)) (some file))
    else none
  | .succeeds file =>
    if state.refcount file = none then
      some (allocate (assign state thread (findFd (state.words thread)) (some file)) file true)
    else none

/-- `sys_close` by a running thread. An empty slot is `EBADF`. The slot is emptied
only with the last reference, and then `kfree` panics on a name that is not from
`kmalloc`. Through a dangling slot the call does anything. The run ends there. -/
def sysClose (thread : Thread) (fd : Nat) : Option (State Thread Obj) :=
  match state.words thread fd with
  | none => some state
  | some file =>
    match state.refcount file with
    | none => none
    | some count =>
      if count - 1 = 0 then
        if state.nameOwned file = true then
          some { assign state thread fd none with
            refcount := update state.refcount file none
            vnodeOpen := update state.vnodeOpen file false }
        else none
      else
        some { state with
          refcount := update state.refcount file (some (count - 1)) }

/-- One round of the loop in `enter_forked_process`: the slot is copied from the
parent's structure as it is now, and the object counts one more reference. An
increment through a dangling pointer lands in free memory. After the last slot
the child enters user mode. -/
def copySlot (child parent : Thread) (copied : Nat) : State Thread Obj :=
  let copy := assign state child copied (state.words parent copied)
  { copy with
    refcount := match state.words parent copied with
      | none => state.refcount
      | some file => update state.refcount file ((state.refcount file).map (· + 1))
    phase := update state.phase child
      (if copied + 1 = openMax then .running else .starting parent (copied + 1))
    entered := if copied + 1 = openMax then
        update state.entered child (some (copy.words child))
      else state.entered }

/-- The structure of a new thread, with what the memory held before. -/
def create (thread : Thread) (phase : Phase Thread) (junk : Nat → Option Obj) : State Thread Obj :=
  { state with
    phase := update state.phase thread phase
    words := update state.words thread junk }

/-- The part of `runprogram` that sets up the table of a new thread: the standard
descriptors in slots zero to two. -/
def runprogram (thread : Thread) (fin fout ferr : Obj) (junk : Nat → Option Obj) :
    State Thread Obj :=
  let created := create state thread .running junk
  let first := allocate (assign created thread 0 (some fin)) fin false
  let second := allocate (assign first thread 1 (some fout)) fout false
  allocate (assign second thread 2 (some ferr)) ferr false

/-- `sys_fork`: the child has its parent's table to copy. -/
def sysFork (parent child : Thread) (junk : Nat → Option Obj) : State Thread Obj :=
  { create state child (.starting parent 0) junk with
    snapshot := update state.snapshot child (state.words parent) }

/-- The transition function. -/
def next : Action Thread Obj → Option (State Thread Obj)
  | .runprogram thread fin fout ferr junk =>
    if state.phase thread = .absent ∧ state.refcount fin = none ∧ state.refcount fout = none ∧
        state.refcount ferr = none ∧ [fin, fout, ferr].Nodup then
      some (runprogram state thread fin fout ferr junk)
    else none
  | .sysOpen thread opening =>
    if state.phase thread = .running then sysOpen state thread opening else none
  | .sysClose thread fd =>
    if state.phase thread = .running then sysClose state thread fd else none
  | .sysFork parent child junk =>
    if state.phase parent = .running ∧ state.phase child = .absent then
      some (sysFork state parent child junk)
    else none
  | .copySlot child =>
    match state.phase child with
    | .starting parent copied => some (copySlot state child parent copied)
    | _ => none
  | .sysExit thread =>
    if state.phase thread = .running then
      some { state with phase := update state.phase thread .exited }
    else none
  | .reuse thread junk =>
    if state.phase thread = .exited then
      some { state with words := update state.words thread junk }
    else none

end

/-- The search ends inside the table at an empty slot, or one past a full table. -/
theorem find_fd_cases (table : Nat → Option Obj) :
    (findFd table < openMax ∧ table (findFd table) = none) ∨
      (findFd table = openMax ∧ ∀ fd, fd < openMax → table fd ≠ none) := by
  unfold findFd
  cases found : (List.range openMax).find? (fun fd => (table fd).isNone) with
  | none =>
    refine Or.inr ⟨rfl, fun fd inside empty => ?_⟩
    have none_empty := List.find?_eq_none.mp found fd (List.mem_range.mpr inside)
    simp [empty] at none_empty
  | some fd =>
    have inside := List.mem_range.mp (List.mem_of_find?_eq_some found)
    have empty := List.find?_some found
    exact Or.inl ⟨inside, by simpa using empty⟩

/-- The start-ups under way after a slot was copied: the child is one slot further,
unless that was the last one, and the others are where they were. -/
theorem copy_slot_starting [DecidableEq Thread] [DecidableEq Obj]
    {state : State Thread Obj} {child parent other source : Thread} {copied number : Nat}
    (begins : (copySlot state child parent copied).phase other = .starting source number) :
    (other = child ∧ source = parent ∧ number = copied + 1 ∧ copied + 1 ≠ openMax) ∨
      (other ≠ child ∧ state.phase other = .starting source number) := by
  by_cases same : other = child
  · left
    subst same
    by_cases last : copied + 1 = openMax
    · simp [copySlot, last] at begins
    · simp only [copySlot, last, if_false, update_self, Phase.starting.injEq] at begins
      exact ⟨rfl, begins.1.symm, begins.2.symm, last⟩
  · right
    exact ⟨same, by simpa [copySlot, same] using begins⟩

/-- Some child has yet to copy this slot of a thread. -/
def Uncopied (state : State Thread Obj) (thread : Thread) (fd : Nat) : Prop :=
  ∃ child copied, state.phase child = .starting thread copied ∧ copied ≤ fd ∧ fd < openMax

/-- Nothing has run and no memory is allocated. -/
def booted : State Bool Nat where
  phase := fun _ => .absent
  words := fun _ _ => none
  refcount := fun _ => none
  vnodeOpen := fun _ => false
  nameOwned := fun _ => false
  snapshot := fun _ _ => none
  entered := fun _ => none

theorem booted_initial : Initial booted :=
  ⟨fun _ => rfl, fun _ => rfl, fun _ => rfl, fun _ => rfl⟩

end Os161.Proc.FileTable
