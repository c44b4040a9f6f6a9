import Os161.Proc.Calls
import Mathlib.Algebra.GroupWithZero.Nat

/-!
# `sys_execv`

The old address space is destroyed before the program is opened, and from then on there is
nothing to return to. The arguments are copied into the kernel first and then onto the new
stack: the array of pointers at its top, and below it one string after the other.
-/
namespace Os161.Proc.Execv

open Os161.Library Os161.Library.Program Os161.Proc.Calls Function

/-- Copy bytes to an address. -/
def store (memory : Nat → UInt8) (address : Nat) (bytes : List UInt8) : Nat → UInt8 :=
  fun place => (if address ≤ place then bytes[place - address]? else none).getD (memory place)

/-- The bytes at an address. -/
def Holds (memory : Nat → UInt8) (address : Nat) (bytes : List UInt8) : Prop :=
  ∀ i byte, bytes[i]? = some byte → memory (address + i) = byte

/-- A word in memory. -/
def word (value : Nat) : List UInt8 :=
  [value / 2 ^ 24, value / 2 ^ 16, value / 2 ^ 8, value].map UInt8.ofNat

/-- The loop that copies the arguments out, with the stack pointer and user memory. -/
def copyArgs (argptr : Nat) : List (List UInt8) → Nat → Nat → (Nat → UInt8) → Nat × (Nat → UInt8)
  | [], _, stackptr, memory => (stackptr, memory)
  | arg :: rest, i, stackptr, memory =>
    let stackptr := stackptr - (arg.length + 1)
    let memory := store memory (argptr + 4 * i) (word stackptr)
    copyArgs argptr rest (i + 1) stackptr (store memory stackptr (arg ++ [0]))

/-- What `enter_new_process` is given, and the memory the program finds. -/
structure Entered where
  argc : Nat
  argv : Nat
  stackptr : Nat
  memory : Nat → UInt8

/-- `USERSTACK`, which `as_define_stack` returns. -/
abbrev userStack : Nat := 0x80000000

/-- `sys_execv` from `as_define_stack` on. The words from `progargs` on, one more than it has,
are copied out and then overwritten. -/
def enterProgram (progargs : List (List UInt8)) (words : List UInt8) (memory : Nat → UInt8) :
    Entered :=
  let argc := progargs.length
  let argptr := userStack - 4 * (argc + 1)
  let (stackptr, memory) := copyArgs argptr progargs 0 argptr (store memory argptr words)
  { argc := argc
    argv := argptr
    stackptr := stackptr - stackptr % 8
    memory := store memory (argptr + 4 * argc) (word 0) }

/-- What the calls made by `sys_execv` return: `copyinstr` on the name, with its length, and on
the arguments, with the copies and what follows `progargs`; `vfs_open`; `as_create`; and
`load_elf`, with user memory after it. -/
structure Executing where
  copyinstr : Int32
  size : Nat
  args : List Int32
  progargs : List (List UInt8)
  words : List UInt8
  vfsOpen : Int32
  asCreate : Pointer
  loadElf : Int32
  memory : Nat → UInt8

/-- The address space of the process, and those that exist with their contents. -/
structure State (Space : Type) where
  pAddrspace : Pointer
  spaces : Pointer → Option Space

variable {Space : Type}

/-- `as_destroy` on the address space of the process, if it has one. The pointer stays. -/
def State.asDestroy (state : State Space) : State Space :=
  if state.pAddrspace ≠ null then
    { state with spaces := update state.spaces state.pAddrspace none }
  else state

/-- `sys_execv`. It looks at the results for the name and of `vfs_open` only, and does not
return once the program has been opened. -/
def sysExecv (executing : Executing) : Program Entered Int32 (State Space) PUnit := do
  onlyIf (executing.copyinstr ≠ 0) (failWith efault)
  onlyIf (executing.size = 1) (failWith einval)
  change State.asDestroy
  onlyIf (executing.vfsOpen ≠ 0) (failWith executing.vfsOpen)
  change fun state => { state with pAddrspace := executing.asCreate }
  fun _ => .stop (enterProgram executing.progargs executing.words executing.memory)

theorem sys_execv_run (executing : Executing) (state : State Space) : sysExecv executing state =
      if executing.copyinstr ≠ 0 then .fail efault state
      else if executing.size = 1 then .fail einval state
      else if executing.vfsOpen ≠ 0 then .fail executing.vfsOpen state.asDestroy
      else .stop (enterProgram executing.progargs executing.words executing.memory) := by
  unfold sysExecv onlyIf
  split_ifs <;> rfl

/-- A process whose address space holds the byte 7. -/
def caller : State UInt8 where
  pAddrspace := 1
  spaces := fun as => if as = 1 then some 7 else none

/-- A program that does not exist. -/
def missing : Executing where
  copyinstr := 0
  size := 5
  args := []
  progargs := []
  words := []
  vfsOpen := 19
  asCreate := 2
  loadElf := 0
  memory := fun _ => 0

theorem holds_store {memory : Nat → UInt8} {address : Nat} {bytes : List UInt8} :
    Holds (store memory address bytes) address bytes := by
  intro i byte found
  simp [store, found]

theorem Holds.store {memory : Nat → UInt8} {address other : Nat} {bytes new : List UInt8}
    (holds : Holds memory address bytes)
    (apart : other + new.length ≤ address ∨ address + bytes.length ≤ other) :
    Holds (store memory other new) address bytes := by
  intro i byte found
  have inside := (List.getElem?_eq_some_iff.mp found).1
  rw [Execv.store, ← holds i byte found]
  split
  · rw [List.getElem?_eq_none (by omega)]
    rfl
  · rfl

/-- The bytes the strings take. -/
def argsSize (args : List (List UInt8)) : Nat := (args.map (·.length + 1)).sum

/-- What the program finds of its arguments: pointers in the array, each to a copy that ends
with a NUL, one below the other. -/
structure Copied (memory : Nat → UInt8) (argv low high : Nat) (args : List (List UInt8))
    (copies : List (Nat × List UInt8)) : Prop where
  args : copies.map Prod.snd = args
  held : ∀ i copy, copies[i]? = some copy → Holds memory (argv + 4 * i) (word copy.1) ∧
    Holds memory copy.1 (copy.2 ++ [0])
  within : ∀ copy ∈ copies, low ≤ copy.1 ∧ copy.1 + copy.2.length + 1 ≤ high
  apart : copies.Pairwise fun above below => below.1 + below.2.length + 1 ≤ above.1

/-- The loop copies the strings and fills the array in, and leaves the rest of memory alone. -/
theorem copy_args_spec {argptr : Nat} {args : List (List UInt8)} {i stackptr : Nat}
    {memory : Nat → UInt8} (below : stackptr ≤ argptr) (fits : argsSize args ≤ stackptr) :
    let done := copyArgs argptr args i stackptr memory
    done.1 = stackptr - argsSize args ∧
      (∀ address bytes, Holds memory address bytes → stackptr ≤ address →
        (address + bytes.length ≤ argptr + 4 * i ∨ argptr + 4 * (i + args.length) ≤ address) →
        Holds done.2 address bytes) ∧
      ∃ copies, Copied done.2 (argptr + 4 * i) done.1 stackptr args copies := by
  induction args generalizing i stackptr memory with
  | nil => exact ⟨rfl, fun _ _ holds _ _ => holds, [], rfl, by simp, by simp, .nil⟩
  | cons arg rest ih =>
    have total : argsSize (arg :: rest) = arg.length + 1 + argsSize rest := by simp [argsSize]
    have four (value : Nat) : (word value).length = 4 := rfl
    have ended : (arg ++ [0]).length = arg.length + 1 := List.length_append
    obtain ⟨ends, kept, copies, copied⟩ := @ih (i + 1) (stackptr - (arg.length + 1))
      (store (store memory (argptr + 4 * i) (word (stackptr - (arg.length + 1))))
        (stackptr - (arg.length + 1)) (arg ++ [0])) (by omega) (by omega)
    refine ⟨ends.trans (by omega), fun address bytes holds above apart => ?_,
      (stackptr - (arg.length + 1), arg) :: copies, ?_⟩
    · rw [List.length_cons] at apart
      refine kept address bytes ((holds.store ?_).store ?_) (by omega) (by omega)
      · rw [four]
        omega
      · omega
    · refine ⟨by rw [List.map_cons, copied.args], fun j copy found => ?_, ?_,
        .cons (fun copy member => (copied.within copy member).2) copied.apart⟩
      · cases j with
        | zero =>
          cases found
          refine ⟨kept _ _ ((holds_store).store ?_) (by omega) (Or.inl (by rw [four]; omega)),
            kept _ _ (holds_store) (Nat.le_refl _) (Or.inl ?_)⟩
          · omega
          · rw [ended]
            omega
        | succ j =>
          have := copied.held j copy found
          rwa [show argptr + 4 * (i + 1) + 4 * j = argptr + 4 * i + 4 * (j + 1) by omega] at this
      · rw [List.forall_mem_cons]
        refine ⟨⟨ends.trans_le (by omega), by simp only []; omega⟩, fun copy member => ?_⟩
        exact ⟨(copied.within copy member).1, (copied.within copy member).2.trans (by omega)⟩

/-- `argc` pointers and a null pointer from `argv` on, and the copies they point to, all
between an aligned stack pointer and the top of the stack. -/
structure Layout (args : List (List UInt8)) (entered : Entered) : Prop where
  argc : entered.argc = args.length
  aligned : entered.stackptr % 8 = 0
  bottom : entered.stackptr ≤ entered.argv
  top : entered.argv + 4 * (args.length + 1) ≤ userStack
  null : Holds entered.memory (entered.argv + 4 * args.length) (word 0)
  copies : ∃ copies, Copied entered.memory entered.argv entered.stackptr entered.argv args copies

/-- Every list of arguments that fits the stack of 18 pages is laid out like that.

Proof: what the loop leaves (`copy_args_spec`) outlives the null pointer, which is stored above
the pointers, and the alignment only moves the stack pointer further down. -/
theorem arguments_laid_out (executing : Executing) (state : State Space) (entered : Entered)
    (fits : 4 * (executing.progargs.length + 1) + argsSize executing.progargs ≤ 18 * 4096)
    (started : sysExecv executing state = .stop entered) :
    Layout executing.progargs entered := by
  have enters : entered = enterProgram executing.progargs executing.words executing.memory := by
    rw [sys_execv_run] at started
    split_ifs at started
    exact (Outcome.stop.inj started).symm
  subst enters
  unfold enterProgram
  generalize executing.progargs = args at fits ⊢
  have stack : userStack = 2 ^ 31 := rfl
  obtain ⟨lowest, _, copies, copied⟩ := @copy_args_spec _ args 0 _
    (store executing.memory (userStack - 4 * (args.length + 1)) executing.words)
    (Nat.le_refl (userStack - 4 * (args.length + 1))) (by omega)
  refine ⟨rfl, ?_, ?_, by simp only []; omega, holds_store, copies, copied.args,
    fun i copy found => ?_, fun copy member => ?_, copied.apart⟩
  · simp only []
    omega
  · exact (Nat.sub_le _ _).trans (lowest.trans_le (Nat.sub_le _ _))
  · obtain ⟨pointer, string⟩ := copied.held i copy found
    have inside := (List.getElem?_eq_some_iff.mp found).1
    have within := copied.within copy (List.mem_of_getElem? found)
    have count : copies.length = args.length := by rw [← copied.args, List.length_map]
    refine ⟨pointer.store (Or.inr ?_), string.store (Or.inr ?_)⟩
    · simp only [word, List.map_cons, List.length_cons, List.map_nil, List.length_nil]
      omega
    · rw [List.length_append, List.length_singleton]
      omega
  · exact ⟨(Nat.sub_le _ _).trans (copied.within copy member).1, (copied.within copy member).2⟩

/-- The strings `cp` and `x` on a stack of zeros. -/
theorem two_arguments_laid_out :
    Layout [[99, 112], [120]] (enterProgram [[99, 112], [120]] [] fun _ => 0) :=
  arguments_laid_out { missing with vfsOpen := 0, progargs := [[99, 112], [120]] } caller _
    (by decide) rfl

end Os161.Proc.Execv
