import Os161.Library.Relational
import Os161.Vm.AsCopy

/-!
# What the calls of the VM system do to its books

Two facts about every call are shown in one pass over the programs. The coremap, the page
tables and the TLB do not depend on memory: from two machines that differ only in memory
a call ends in the same way, in two such machines. And a call takes frames for the address
space it is called with, and for no other.
-/
namespace Os161.Vm

open Os161.Library Os161.Library.Program

/-- Every entry keeps its owner, gets a given one, or loses it. -/
structure Takes (cur : Option AsPtr) (before after : Coremap) : Prop where
  size : after.size = before.size
  owner : ∀ k, (after.entries k).as = (before.entries k).as ∨ (after.entries k).as = cur ∨
    (after.entries k).as = none

variable {cur : Option AsPtr} {Value : Type}

instance : IsPreorder Coremap (Takes cur) where
  refl _ := ⟨rfl, fun _ => Or.inl rfl⟩
  trans _ _ _ earlier later := by
    refine ⟨later.size.trans earlier.size, fun k => ?_⟩
    rcases later.owner k with kept | taken
    · rw [kept]
      exact earlier.owner k
    · exact Or.inr taken

theorem takes_assign (coremap : Coremap) {k : Nat} {as : Option AsPtr} {va : BitVec 32}
    {st : PageState} (allowed : as = cur ∨ as = none) :
    Takes cur coremap (coremap.assign k as va st) := by
  refine ⟨rfl, fun other => ?_⟩
  obtain rfl | same := eq_or_ne other k
  · refine Or.inr ?_
    simpa [Coremap.assign, assigned] using allowed
  · rw [assign_elsewhere same]
    exact Or.inl rfl

theorem touch_moves (index : Nat) : Moves (Takes cur) (touch index) := by
  intro coremap
  constructor
  unfold touch
  split
  · exact refl coremap
  · exact True.intro

theorem page_alloc_moves (pnum : Nat) : Moves (Takes cur) (pageAlloc cur pnum) :=
  (touch_moves pnum).bind fun _ =>
    moves_inspect.bind fun _ =>
    moves_check.bind fun _ =>
    moves_change fun coremap => takes_assign coremap (Or.inl rfl)

theorem search_loop_moves (npages rounds i : Nat) :
    Moves (Takes cur) (searchLoop npages rounds i) := by
  induction rounds generalizing i with
  | zero => exact moves_pure
  | succ rounds ih =>
    refine moves_inspect.bind fun coremap => ?_
    split
    · split
      · exact moves_pure
      · exact (touch_moves _).bind fun _ => ih _
    · exact moves_pure

/-- `alloc_kpages` takes frames for the address space it is called with. -/
theorem alloc_kpages_moves (npages : Nat) : Moves (Takes cur) (allocKpages cur npages) := by
  refine moves_inspect.bind fun size =>
    (search_loop_moves npages size 0).bind fun i => ?_
  split
  · exact moves_pure
  · exact (touch_moves i).bind fun _ => moves_inspect.bind fun _ => (moves_count_up
        (fun index _ => page_alloc_moves (i + index)) npages PUnit.unit).bind
      fun _ => moves_pure

theorem free_kpages_moves (addr : BitVec 32) : Moves (Takes cur) (freeKpages addr) := by
  refine moves_inspect.bind fun coremap => ?_
  split
  · exact moves_pure
  · exact moves_change fun coremap => takes_assign coremap (Or.inr rfl)

/-- Two machines that differ only in memory, and that have come from a coremap by taking
frames for one address space. -/
structure Beside (cur : Option AsPtr) (start : Coremap) (first second : Machine) : Prop where
  books : OnlyMemory first second
  takes : Takes cur start first.coremap

variable {start : Coremap} {first second : Machine}

theorem agrees_books {program : VmProgram Value}
    (agrees : ∀ start, Agrees (Beside cur start) program) : Agrees OnlyMemory program := by
  intro first second books
  have same := agrees first.coremap first second ⟨books, refl _⟩
  generalize program first = firstEnd at same
  generalize program second = secondEnd at same
  cases same with
  | stop reason => exact .stop reason
  | fail error beside => exact .fail error beside.books
  | done value beside => exact .done value beside.books

theorem on_coremap_agrees {program : CoremapProgram Value} (moves : Moves (Takes cur) program) :
    Agrees (Beside cur start) (onCoremap program) := by
  intro first second beside
  have moved := (moves first.coremap).outcome
  unfold onCoremap
  rw [beside.books.coremap]
  generalize program first.coremap = ended at moved
  cases ended with
  | stop reason => exact .stop reason
  | fail error after =>
    exact .fail error ⟨⟨rfl, beside.books.spaces, beside.books.tlb⟩,
      trans_of (Takes cur) beside.takes moved⟩
  | done value after =>
    exact .done value ⟨⟨rfl, beside.books.spaces, beside.books.tlb⟩,
      trans_of (Takes cur) beside.takes moved⟩

/-- A change that leaves the coremap as it is. -/
theorem change_agrees {update : Machine → Machine}
    (books : ∀ first second, OnlyMemory first second → OnlyMemory (update first) (update second))
    (same : ∀ machine, (update machine).coremap = machine.coremap) :
    Agrees (Beside cur start) (change update : VmProgram PUnit) := by
  refine agrees_change fun first second beside => ⟨books first second beside.books, ?_⟩
  rw [same first]
  exact beside.takes

theorem set_space_agrees (as : AsPtr) {update : AddrSpace → AddrSpace} :
    Agrees (Beside cur start) (setSpace as update) := by
  refine change_agrees (fun first second same => ⟨same.coremap, ?_, same.tlb⟩) fun _ => rfl
  simp [same.spaces]

theorem space_agrees (as : AsPtr) : Agrees (Beside cur start)
    (inspect (fun machine : Machine => machine.spaces as) : VmProgram AddrSpace) :=
  agrees_inspect fun _ _ beside => by rw [beside.books.spaces]

theorem kernel_write_agrees {paddr length : BitVec 32}
    {contents : (BitVec 32 → BitVec 8) → BitVec 32 → BitVec 8} :
    Agrees (Beside cur start) (kernelWrite paddr length contents) :=
  agrees_check.bind fun _ => change_agrees (fun _ _ same => { same with }) fun _ => rfl

/-- `as_create` takes frames for the address space it is called with, not for the new
one. -/
theorem as_create_agrees : Agrees (Beside cur start) (asCreate cur) := by
  refine (on_coremap_agrees (alloc_kpages_moves 13)).bind fun addr => ?_
  split
  · exact agrees_fail
  · exact (set_space_agrees addr).bind fun _ => agrees_pure

theorem alloc_region_agrees (as : AsPtr) {npages : BitVec 32}
    {record : AddrSpace → BitVec 32 → AddrSpace} :
    Agrees (Beside cur start) (allocRegion cur as npages record) := by
  refine (on_coremap_agrees (alloc_kpages_moves npages.toNat)).bind fun addr =>
    (set_space_agrees as).bind fun _ => ?_
  split
  · exact agrees_fail
  · exact agrees_pure

theorem as_prepare_load_agrees (as : AsPtr) :
    Agrees (Beside cur start) (asPrepareLoad cur as) :=
  (space_agrees as).bind fun _ => agrees_check.bind fun _ =>
    (alloc_region_agrees as).bind fun _ => (alloc_region_agrees as).bind fun _ =>
    (alloc_region_agrees as).bind fun _ => (space_agrees as).bind fun _ =>
    kernel_write_agrees.bind fun _ => kernel_write_agrees.bind fun _ => kernel_write_agrees

theorem move_region_agrees {target source npages : BitVec 32} :
    Agrees (Beside cur start) (moveRegion target source npages) :=
  agrees_check.bind fun _ => kernel_write_agrees

/-- `as_copy` takes frames for the old address space. -/
theorem as_copy_agrees (old : AsPtr) : Agrees (Beside (some old) start) (asCopy old) := by
  refine as_create_agrees.bind fun new => (space_agrees old).bind fun _ =>
    (set_space_agrees new).bind fun _ =>
    (as_prepare_load_agrees new).attempt.bind fun prepared => ?_
  cases prepared with
  | error error => exact (on_coremap_agrees (free_kpages_moves new)).bind fun _ => agrees_fail
  | ok done =>
    exact (space_agrees new).bind fun _ => agrees_check.bind fun _ =>
      move_region_agrees.bind fun _ => move_region_agrees.bind fun _ =>
      move_region_agrees.bind fun _ => agrees_pure

theorem load_regions_agrees (as : AsPtr) (vaddr1 sz1 vaddr2 sz2 : BitVec 32) :
    Agrees (Beside (some as) start) (loadRegions as vaddr1 sz1 vaddr2 sz2) := by
  refine (space_agrees as).bind fun space => ?_
  split
  · exact agrees_fail
  · exact (set_space_agrees as).bind fun _ => as_prepare_load_agrees as

theorem load_space_agrees (vaddr1 sz1 vaddr2 sz2 : BitVec 32) :
    Agrees OnlyMemory (loadSpace cur vaddr1 sz1 vaddr2 sz2) :=
  (agrees_books fun _ => as_create_agrees).bind fun as =>
    (agrees_books fun _ => load_regions_agrees as vaddr1 sz1 vaddr2 sz2).bind fun _ => agrees_pure

/-- A program that looks at the whole machine uses only its books. -/
theorem agrees_machine {program : Machine → VmProgram Value}
    (agrees : ∀ machine, Agrees (Beside cur start) (program machine))
    (same : ∀ first second, OnlyMemory first second → program second = program first) :
    Agrees (Beside cur start) (inspect id >>= program) := by
  intro first second beside
  show Outcome.Agree (Beside cur start) (program first first) (program second second)
  rw [same first second beside.books]
  exact agrees first first second beside

theorem set_tlb_same (same : OnlyMemory first second) {slot : Nat} {pa : BitVec 32}
    (page : BitVec 32) : OnlyMemory (first.setTlb slot page pa) (second.setTlb slot page pa) :=
  ⟨same.coremap, same.spaces, by simp only [Machine.setTlb, same.tlb]⟩

theorem place_same (same : OnlyMemory first second) (as : AsPtr) (page : BitVec 32)
    (i j slot : Nat) :
    OnlyMemory (first.place as page i j slot) (second.place as page i j slot) := by
  constructor
  · simp [Machine.place, Machine.setTlb, same.coremap]
  · simp [Machine.place, Machine.setTlb, Machine.setSlot, same.coremap, same.spaces]
  · simp [Machine.place, Machine.setTlb, Machine.setSlot, same.coremap, same.tlb]

theorem new_entry_agrees (as : AsPtr) (page : BitVec 32) (slot rounds i : Nat) :
    Agrees (Beside (some as) start) (newEntry as page slot rounds i) := by
  induction rounds generalizing i with
  | zero => exact agrees_pure
  | succ rounds ih =>
    refine agrees_machine ?_ ?_
    · intro machine
      split
      · exact ih (i + 1)
      split
      · refine Agrees.bind (agrees_change fun first second beside => ?_) fun _ => agrees_pure
        exact ⟨place_same beside.books as page i _ slot,
          trans_of (Takes _) beside.takes (takes_assign first.coremap (Or.inl rfl))⟩
      · refine Agrees.bind (change_agrees (fun first second same => ?_) fun _ => rfl) fun _ =>
          ih (i + 1)
        rw [same.spaces]
        exact ⟨same.coremap, by simp only [Machine.setSlot, same.spaces], same.tlb⟩
    · intro first second same
      simp [same.coremap, same.spaces]

theorem fall_back_agrees (page paddr : BitVec 32) :
    Agrees (Beside cur start) (fallBack page paddr) := by
  refine agrees_machine ?_ ?_
  · intro machine
    split
    · exact (change_agrees (fun _ _ same => set_tlb_same same page) fun _ => rfl).bind fun _ =>
        agrees_pure
    · exact agrees_fail
  · intro first second same
    simp [same.tlb]

theorem lookup_same (same : OnlyMemory first second) (as : AsPtr) (page : BitVec 32) :
    lookup second as page = lookup first as page := by
  unfold lookup
  rw [same.spaces, same.coremap]

/-- A fault ends alike on machines that differ only in memory. -/
theorem user_fault_agrees (as : AsPtr) (page : BitVec 32) (slot : Nat) :
    Agrees (Beside (some as) start) (userFault as page slot) := by
  refine agrees_machine ?_ ?_
  · intro machine
    refine agrees_check.bind fun _ => ?_
    split
    · exact agrees_fail
    refine agrees_check.bind fun _ => ?_
    split
    · refine Agrees.bind (change_agrees (fun first second same => ?_) fun _ => rfl) fun _ =>
        agrees_pure
      rw [same.spaces]
      exact set_tlb_same same page
    · refine (new_entry_agrees as page slot _ 0).bind fun found => ?_
      split
      · exact agrees_pure
      · exact fall_back_agrees page _
  · intro first second same
    rw [same.spaces, lookup_same same]

theorem kernel_fault_agrees (page : BitVec 32) (slot : Nat) :
    Agrees (Beside cur start) (kernelFault page slot) := by
  refine agrees_machine ?_ ?_
  · intro machine
    split
    · refine Agrees.bind (change_agrees (fun first second same => ?_) fun _ => rfl) fun _ =>
        agrees_pure
      rw [same.coremap]
      exact set_tlb_same same page
    · exact agrees_fail
  · intro first second same
    rw [same.coremap]

/-- `vm_fault` takes frames for the address space of the process that faults. -/
theorem vm_fault_agrees (faulttype : FaultType) (address : BitVec 32) (owner : Option AsPtr)
    (slot : Nat) : Agrees (Beside owner start) (vmFault faulttype address (some owner) slot) := by
  cases faulttype with
  | read | write =>
    cases owner with
    | none => exact kernel_fault_agrees _ slot
    | some as => exact user_fault_agrees as _ slot
  | readonly => exact fun _ _ _ => .stop _
  | other => exact agrees_fail

end Os161.Vm
