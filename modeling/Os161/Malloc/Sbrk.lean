import Os161.Malloc.Heap
import Os161.Vm.Fault

/-!
# The break and the user heap

`sys_sbrk` rounds the increment before it uses it: it adds four minus the remainder by
four, which is never zero, so the break always moves by something else than what was
asked for. `malloc` keeps its own idea of where the break is and gives up when the system
call returns anything else.
-/
namespace Os161.Malloc

open Os161.Library Os161.Library.Program Os161.Vm

/-- The increment `sys_sbrk` goes on with. -/
def roundInc (inc : BitVec 32) : BitVec 32 := inc + (4#32 - inc.srem 4#32)

/-- `sys_sbrk`. The sum with the increment and the comparisons are unsigned. -/
def sysSbrk (inc : BitVec 32) : Program Halt Errno AddrSpace (BitVec 32) := do
  let space ← inspect id
  if space.asHeapend + roundInc inc > space.asStackpbase then failWith .ENOMEM
  else if space.asHeapend + roundInc inc < space.asHeapstart then failWith .EINVAL
  else do
    change (fun space => { space with asHeapend := space.asHeapend + roundInc inc })
    pure space.asHeapend

/-- The library function: an error comes back as minus one. -/
def userSbrk (size : Nat) (space : AddrSpace) : Option Nat × AddrSpace :=
  match sysSbrk (BitVec.ofNat 32 size) space with
  | .done old after => (some old.toNat, after)
  | .fail _ after => (none, after)
  | .stop _ => (none, space)

section

variable (space : AddrSpace)

/-- The address space after a call. -/
def afterCall (inc : BitVec 32) : AddrSpace :=
  match sysSbrk inc space with
  | .done _ after | .fail _ after => after
  | .stop _ => space

/-- The address space after some calls. -/
def afterCalls (incs : List (BitVec 32)) : AddrSpace :=
  incs.foldl afterCall space

/-- The calls that `malloc` makes through `__malloc_sbrk`. -/
def mallocCalls : List (BitVec 32) → HeapProgram AddrSpace PUnit
  | [] => pure PUnit.unit
  | inc :: rest => do
    let _ ← mallocSbrk userSbrk inc.toNat
    mallocCalls rest

/-- A successful call returns the previous break and moves it by exactly the increment,
and a failed call leaves it unchanged. -/
def Exact (inc : BitVec 32) : Prop :=
  match sysSbrk inc space with
  | .done old after => old = space.asHeapend ∧ after.asHeapend = space.asHeapend + inc
  | .fail _ after => after.asHeapend = space.asHeapend
  | .stop _ => False

/-- What a sequence of calls should do: every call is exact, an increment of zero changes
nothing, an increment and its negation restore the break, and `malloc`, once it knows the
break, never finds that it has moved. -/
structure SbrkContract (space : AddrSpace) (incs : List (BitVec 32)) : Prop where
  exact : ∀ before inc rest, incs = before ++ inc :: rest → Exact (afterCalls space before) inc
  zero : ∀ before rest, incs = before ++ 0#32 :: rest →
    (afterCalls space (before ++ [0#32])).asHeapend = (afterCalls space before).asHeapend
  restores : ∀ before inc rest old middle other last, incs = before ++ inc :: -inc :: rest →
    sysSbrk inc (afterCalls space before) = .done old middle →
    sysSbrk (-inc) middle = .done other last →
    last.asHeapend = (afterCalls space before).asHeapend
  steady : ∀ heap reason, heap.kernel = space → heap.heaptop = space.asHeapend.toNat →
    mallocCalls incs heap ≠ .stop reason

/-- The call is refused: the break, moved by the rounded increment, would be above the
stack or below the start of the heap. -/
def Refused (inc : BitVec 32) : Prop :=
  space.asStackpbase < space.asHeapend + (inc + (4#32 - inc.srem 4#32)) ∨
    space.asHeapend + (inc + (4#32 - inc.srem 4#32)) < space.asHeapstart

theorem round_inc_ne (inc : BitVec 32) : roundInc inc ≠ inc := by
  intro same
  have four : inc.srem 4#32 = 4#32 := by
    unfold roundInc at same
    generalize inc.srem 4#32 = remainder at *
    bv_omega
  have bound : (inc.srem 4#32).toInt < 4 := by
    rw [BitVec.toInt_srem]
    exact Int.tmod_lt_of_pos _ (by decide)
  rw [four] at bound
  exact absurd bound (by decide)

theorem sbrk_refused {inc : BitVec 32} (refused : Refused space inc) :
    ∃ error, sysSbrk inc space = .fail error space := by
  by_cases above : space.asHeapend + roundInc inc > space.asStackpbase
  · exact ⟨.ENOMEM, by simp only [sysSbrk, bind, andThen, inspect, id, above, if_true]; rfl⟩
  · have below : space.asHeapend + roundInc inc < space.asHeapstart :=
      refused.resolve_left above
    exact ⟨.EINVAL, by simp only [sysSbrk, bind, andThen, inspect, id, above, if_false, below, if_true]; rfl⟩

theorem sbrk_accepted {inc : BitVec 32} (accepted : ¬ Refused space inc) :
    sysSbrk inc space = .done space.asHeapend
      { space with asHeapend := space.asHeapend + roundInc inc } := by
  obtain ⟨above, below⟩ := not_or.mp accepted
  have above : ¬ space.asHeapend + roundInc inc > space.asStackpbase := above
  have below : ¬ space.asHeapend + roundInc inc < space.asHeapstart := below
  simp only [sysSbrk, bind, andThen, inspect, id, above, if_false, below, change]
  rfl

theorem exact_iff (inc : BitVec 32) : Exact space inc ↔ Refused space inc := by
  constructor
  · intro exact
    by_contra accepted
    unfold Exact at exact
    rw [sbrk_accepted space accepted] at exact
    exact round_inc_ne inc (BitVec.add_right_inj _ |>.mp exact.2)
  · intro refused
    obtain ⟨error, failed⟩ := sbrk_refused space refused
    unfold Exact
    rw [failed]

theorem after_refused {inc : BitVec 32} (refused : Refused space inc) :
    afterCall space inc = space := by
  obtain ⟨error, failed⟩ := sbrk_refused space refused
  unfold afterCall
  rw [failed]

theorem after_all_refused (incs : List (BitVec 32)) (refused : ∀ inc ∈ incs, Refused space inc) :
    afterCalls space incs = space := by
  induction incs with
  | nil => rfl
  | cons inc rest ih =>
    have first := after_refused space (refused inc List.mem_cons_self)
    show afterCalls (afterCall space inc) rest = space
    rw [first]
    exact ih (fun other member => refused other (List.mem_cons_of_mem _ member))

/-- Exact calls are all refused where the sequence starts. -/
theorem refused_of_exact (incs : List (BitVec 32))
    (exact : ∀ before inc rest, incs = before ++ inc :: rest → Exact (afterCalls space before) inc) :
    ∀ inc ∈ incs, Refused space inc := by
  induction incs with
  | nil => exact nofun
  | cons first rest ih =>
    have refused : Refused space first := (exact_iff space first).mp (exact [] first rest rfl)
    intro inc member
    rcases List.mem_cons.mp member with rfl | member
    · exact refused
    refine ih (fun before other after same => ?_) inc member
    have later := exact (first :: before) other after (by rw [same]; rfl)
    have unchanged : afterCalls space (first :: before) = afterCalls space before := by
      show afterCalls (afterCall space first) before = _
      rw [after_refused space refused]
    rw [unchanged] at later
    exact later

end

theorem malloc_calls_refused (incs : List (BitVec 32)) (heap : Heap AddrSpace)
    (refused : ∀ inc ∈ incs, Refused heap.kernel inc) :
    mallocCalls incs heap = .done PUnit.unit heap := by
  induction incs with
  | nil => rfl
  | cons inc rest ih =>
    obtain ⟨error, failed⟩ := sbrk_refused heap.kernel (refused inc List.mem_cons_self)
    have later := ih (fun other member => refused other (List.mem_cons_of_mem _ member))
    have answer : userSbrk inc.toNat heap.kernel = (none, heap.kernel) := by
      unfold userSbrk
      rw [BitVec.ofNat_toNat, BitVec.setWidth_eq, failed]
    simp only [mallocCalls, mallocSbrk, callSbrk, bind, andThen, answer]
    exact later

/-- A sequence of calls does what it should exactly if every one of them is refused. -/
theorem sbrk_contract_iff (space : AddrSpace) (incs : List (BitVec 32)) :
    SbrkContract space incs ↔ ∀ inc ∈ incs, Refused space inc := by
  constructor
  · exact fun contract => refused_of_exact space incs contract.exact
  · intro refused
    have unchanged (before rest : List (BitVec 32)) (same : incs = before ++ rest) :
        afterCalls space before = space :=
      after_all_refused space before (fun inc member =>
        refused inc (same ▸ List.mem_append_left rest member))
    refine ⟨?_, ?_, ?_, ?_⟩
    · intro before inc rest same
      rw [unchanged before _ same]
      exact (exact_iff space inc).mpr (refused inc (same ▸ by simp))
    · intro before rest same
      rw [unchanged before _ same, unchanged (before ++ [0#32]) rest (by simp [same])]
    · intro before inc rest old middle other last same moved
      rw [unchanged before _ same] at moved
      obtain ⟨error, failed⟩ := sbrk_refused space (refused inc (same ▸ by simp))
      rw [failed] at moved
      cases moved
    · intro heap reason kernel _
      rw [malloc_calls_refused incs heap (kernel ▸ refused)]
      exact nofun

/-- An address space with room for its heap. -/
def roomySpace : AddrSpace := { emptySpace with
  asHeapstart := 0x500000#32, asHeapend := 0x500000#32, asStackpbase := 0x700000#32 }

/-- A process in it that has not called `malloc` yet. -/
def roomyHeap : Heap AddrSpace where
  heapbase := 0
  heaptop := 0
  memory := fun _ => deadbeef
  kernel := roomySpace

/-- An increment of zero moves the break by four, and the first call of `malloc` gives up
because the break has moved. -/
theorem sbrk_zero_moves :
    sysSbrk 0#32 roomySpace = .done 0x500000#32 { roomySpace with asHeapend := 0x500004#32 } ∧
      malloc userSbrk 1 roomyHeap = .stop (.heapTopMoved 0x500000 0x500004) ∧
      ¬ SbrkContract roomySpace [0#32] := by
  refine ⟨rfl, rfl, fun contract => ?_⟩
  have refused := refused_of_exact roomySpace [0#32] contract.exact 0#32 List.mem_cons_self
  unfold Refused at refused
  exact absurd refused (by decide)

end Os161.Malloc
