import Os161.Vm.AsCopy

/-!
# What `as_prepare_load` reports

`as_prepare_load` looks for the physical address zero, after `KVADDR_TO_PADDR` has made
0x80000000 of the null address with which `alloc_kpages` says that there is no room. So no
failure is reported. Without one, the regions have the frames they should have.
-/
namespace Os161.Vm

open Os161.Library Os161.Library.Program Function

/-- The frames lie one behind the other, above address zero and where the kernel can write. -/
structure InReach (coremap : Coremap) : Prop where
  contiguous : Contiguous coremap
  above : ∀ k, k < coremap.size → (coremap.entries k).pa ≠ 0#32
  below : ∀ k, k < coremap.size → (coremap.entries k).pa.toNat + pageSize ≤ 512 * 1024 * 1024

/-- A call of `alloc_kpages` that fails, or marks a run of free frames and returns its address. -/
structure Call (cur : Option AsPtr) (npages : BitVec 32) (before after : Coremap)
    (addr : BitVec 32) : Prop where
  returned : allocKpages cur npages.toNat before = .done addr after
  answered : addr = 0#32 ∧ after = before ∨ ∃ start, start < before.size ∧
    FreeRun before start npages.toNat ∧ addr = paddrToKvaddr (before.entries start).pa ∧
    Marks cur start npages.toNat before after

/-- The three calls for an address space that has no frames yet, and what they return. -/
structure Attempt (cur : Option AsPtr) (as : AsPtr) (machine : Machine) where
  (addr1 addr2 addr3 : BitVec 32)
  (map1 map2 map3 : Coremap)
  reach : InReach machine.coremap
  unset : (machine.spaces as).asPbase1 = 0#32 ∧ (machine.spaces as).asPbase2 = 0#32 ∧
    (machine.spaces as).asStackpbase = 0#32
  first : Call cur (machine.spaces as).asNpages1 machine.coremap map1 addr1
  second : Call cur (machine.spaces as).asNpages2 map1 map2 addr2
  third : Call cur stackPages map2 map3 addr3

/-- A physical address is in a run of pages. -/
abbrev InRun (run : BitVec 32 × BitVec 32) (address : BitVec 32) : Prop :=
  run.1.toNat ≤ address.toNat ∧ address.toNat < run.1.toNat + pageSize * run.2.toNat

/-- The runs are of frames that were free, no two share any, they have been cleared, and nothing
else has been written. -/
structure Prepared (runs : List (BitVec 32 × BitVec 32)) (before after : Machine) : Prop where
  frames : ∀ run ∈ runs, ∃ start, FreeRun before.coremap start run.2.toNat ∧
    run.1 = (before.coremap.entries start).pa
  apart : runs.Pairwise fun run other => ∀ address, InRun run address → ¬ InRun other address
  cleared : ∀ run ∈ runs, ∀ address, InRun run address → after.memory address = 0#8
  kept : ∀ address, (∀ run ∈ runs, ¬ InRun run address) →
    after.memory address = before.memory address

/-- `as_prepare_load` fails with `ENOMEM` exactly if an allocation fails, and if it returns, the
regions and the stack have runs of the required lengths. -/
def Reports (cur : Option AsPtr) (as : AsPtr) (machine : Machine) (addrs : List (BitVec 32)) : Prop :=
  ((∃ after, asPrepareLoad cur as machine = .fail .ENOMEM after) ↔ 0#32 ∈ addrs) ∧
    ∀ after, asPrepareLoad cur as machine = .done PUnit.unit after →
      Prepared [((after.spaces as).asPbase1, (machine.spaces as).asNpages1),
        ((after.spaces as).asPbase2, (machine.spaces as).asNpages2),
        ((after.spaces as).asStackpbase, stackPages)] machine after

section

variable {paddr npages : BitVec 32} {machine : Machine}

theorem zero_region_run (fits : paddr.toNat + pageSize * npages.toNat ≤ 512 * 1024 * 1024) :
    asZeroRegion paddr npages machine = .done PUnit.unit { machine with
      memory := fun address =>
        if InRun (paddr, npages) address then 0#8 else machine.memory address } := by
  have length : (npages * 4096#32).toNat = pageSize * npages.toNat := by
    rw [BitVec.toNat_mul]
    simp only [pageSize, BitVec.toNat_ofNat] at *
    omega
  have same (address : BitVec 32) :
      address - paddr < npages * 4096#32 ↔ InRun (paddr, npages) address := by
    rw [BitVec.lt_def, BitVec.toNat_sub]
    simp only [InRun, pageSize] at *
    omega
  simp [asZeroRegion, kernelWrite, bind, andThen, check, length, fits, change, same]

theorem zero_region_unfailing {error : Errno} {after : Machine} :
    asZeroRegion paddr npages machine ≠ .fail error after := by
  simp only [asZeroRegion, kernelWrite, bind, andThen, check]
  split_ifs <;> exact nofun

end

section

variable {cur : Option AsPtr} {npages addr : BitVec 32} {before after : Coremap}

/-- With no memory to read behind the map every call that returns is one. -/
theorem Call.of_done (returned : allocKpages cur npages.toNat before = .done addr after)
    (tight : before.readable = before.size) (positive : 0 < npages.toNat) :
    Call cur npages before after addr := by
  refine ⟨returned, (alloc_kpages_done returned).imp_right ?_⟩
  rintro ⟨start, _, _, address, marks, available⟩
  have last := (available (start + npages.toNat - 1) (by omega) (by omega)).1
  exact ⟨start, by omega, ⟨by omega, fun k above below => (available k above below).2⟩, address, marks⟩

theorem Call.in_reach (call : Call cur npages before after addr) (reach : InReach before) :
    InReach after := by
  rcases call.answered with ⟨_, rfl⟩ | ⟨_, _, _, _, marks⟩
  · exact reach
  · constructor <;> simp only [Contiguous, marks.same_addresses.pa, marks.size]
    · exact reach.contiguous
    · exact reach.above
    · exact reach.below

/-- A failed allocation is not noticed. -/
theorem alloc_region_run {as : AsPtr} {machine : Machine} (reach : InReach machine.coremap)
    (call : Call cur npages machine.coremap after addr) {record : AddrSpace → BitVec 32 → AddrSpace} :
    allocRegion cur as npages record machine = .done PUnit.unit { machine with
      coremap := after
      spaces := update machine.spaces as (record (machine.spaces as) (kvaddrToPaddr addr)) } := by
  have nonzero : kvaddrToPaddr addr ≠ 0#32 := by
    rcases call.answered with ⟨rfl, _⟩ | ⟨start, inside, _, rfl, _⟩
    · decide
    · rw [kvaddr_back]
      exact reach.above start inside
  simp only [allocRegion, bind, andThen, onCoremap, call.returned, setSpace, change, nonzero, if_false]
  rfl

/-- The kernel can write to a run of frames. -/
theorem InReach.fits (reach : InReach before) {start npages : Nat} (inside : start < before.size)
    (run : FreeRun before start npages) :
    (before.entries start).pa.toNat + pageSize * npages ≤ 512 * 1024 * 1024 := by
  have within := run.1
  have first := reach.contiguous start inside
  have last := reach.contiguous (start + npages - 1)
  have high := reach.below (start + npages - 1)
  unfold pageSize at *
  omega

/-- Marked frames are not free: a run that is free afterwards was free before, and has none of
them. -/
theorem Marks.free {start count other length : Nat} (marks : Marks cur start count before after)
    (run : FreeRun after other length) : FreeRun before other length ∧
      (start + count ≤ other ∨ other + length ≤ start ∨ count = 0 ∨ length = 0) := by
  have outside (k : Nat) (above : other ≤ k) (below : k < other + length) :
      k < start ∨ start + count ≤ k := by
    by_contra within
    have free := run.2 k above below
    rw [marks.taken k (by omega) (by omega)] at free
    cases free
  refine ⟨⟨marks.size ▸ run.1, fun k above below => ?_⟩, ?_⟩
  · rw [← marks.kept k (outside k above below)]
    exact run.2 k above below
  · have := outside (max start other)
    omega

end

section

variable {cur : Option AsPtr} {as : AsPtr} {machine : Machine} (attempt : Attempt cur as machine)

/-- Whatever the calls return, `as_prepare_load` goes on to clear the regions. -/
theorem prepare_load_run : asPrepareLoad cur as machine = (do
    asZeroRegion (kvaddrToPaddr attempt.addr1) (machine.spaces as).asNpages1
    asZeroRegion (kvaddrToPaddr attempt.addr2) (machine.spaces as).asNpages2
    asZeroRegion (kvaddrToPaddr attempt.addr3) stackPages : VmProgram PUnit) { machine with
      coremap := attempt.map3
      spaces := update machine.spaces as ((machine.spaces as).prepared (kvaddrToPaddr attempt.addr1)
        (kvaddrToPaddr attempt.addr2) (kvaddrToPaddr attempt.addr3)) } := by
  have reach := attempt.first.in_reach attempt.reach
  rw [asPrepareLoad, run_bind_inspect, run_bind_done (check_passes attempt.unset),
    run_bind_done (alloc_region_run attempt.reach attempt.first),
    run_bind_done (alloc_region_run reach attempt.second),
    run_bind_done (alloc_region_run (attempt.second.in_reach reach) attempt.third), run_bind_inspect]
  simp only [update_self, update_idem]
  rfl

/-- `as_prepare_load` reports what it should exactly if no allocation fails. -/
theorem prepare_load_reports_iff :
    Reports cur as machine [attempt.addr1, attempt.addr2, attempt.addr3] ↔
      0#32 ∉ [attempt.addr1, attempt.addr2, attempt.addr3] := by
  have run := prepare_load_run attempt
  have never (after : Machine) : asPrepareLoad cur as machine ≠ .fail .ENOMEM after := by
    intro failed
    rcases bind_failed_run (run.symm.trans failed) with failed | ⟨_, _, _, failed⟩
    · exact zero_region_unfailing failed
    · rcases bind_failed_run failed with failed | ⟨_, _, _, failed⟩ <;>
        exact zero_region_unfailing failed
  refine ⟨fun reports member => ?_, fun fine => ⟨⟨fun ⟨after, failed⟩ => (never after failed).elim,
    fun member => absurd member fine⟩, fun after ended => ?_⟩⟩
  · obtain ⟨after, failed⟩ := reports.1.mpr member
    exact never after failed
  · obtain ⟨addr1, addr2, addr3, map1, map2, map3, reach, unset, first, second, third⟩ := attempt
    simp only [List.mem_cons, List.not_mem_nil, or_false, not_or] at fine run
    obtain ⟨start1, inside1, free1, rfl, marks1⟩ :=
      first.answered.resolve_left fun null => fine.1 null.1.symm
    obtain ⟨start2, inside2, free2, rfl, marks2⟩ :=
      second.answered.resolve_left fun null => fine.2.1 null.1.symm
    obtain ⟨start3, inside3, free3, rfl, marks3⟩ :=
      third.answered.resolve_left fun null => fine.2.2 null.1.symm
    have fits1 := reach.fits inside1 free1
    have fits2 := (first.in_reach reach).fits inside2 free2
    have fits3 := (second.in_reach (first.in_reach reach)).fits inside3 free3
    have place1 := reach.contiguous start1 inside1
    have place2 := reach.contiguous start2 (marks1.size ▸ inside2)
    have place3 := reach.contiguous start3 (marks1.size ▸ marks2.size ▸ inside3)
    obtain ⟨free2, apart12⟩ := marks1.free free2
    obtain ⟨free3, apart23⟩ := marks2.free free3
    obtain ⟨free3, apart13⟩ := marks1.free free3
    simp only [kvaddr_back, marks1.same_addresses.pa, marks2.same_addresses.pa] at run fits2 fits3
    rw [run, run_bind_done (zero_region_run fits1), run_bind_done (zero_region_run fits2),
      zero_region_run fits3] at ended
    cases ended
    constructor <;> simp only [update_self, AddrSpace.prepared, List.pairwise_cons, List.mem_cons,
      List.not_mem_nil, or_false, forall_eq_or_imp, forall_eq]
    · exact ⟨⟨start1, free1, rfl⟩, ⟨start2, free2, rfl⟩, start3, free3, rfl⟩
    · simp only [InRun, pageSize] at *
      refine ⟨⟨fun address => ?_, fun address => ?_⟩, fun address => ?_, by simp⟩ <;> omega
    · refine ⟨?_, ?_, ?_⟩ <;> intro address within <;> simp only [if_pos within, ite_self]
    · intro address outside
      simp [outside]

end

/-- An address space with two regions of a page and no frames, in a machine with twenty free ones. -/
def spacious : Machine := { bootedSystem.machine with
  coremap := freeFrames 20 20 (by decide) (by decide)
  spaces := fun _ => { emptySpace with asPbase1 := 0#32, asPbase2 := 0#32, asStackpbase := 0#32 } }

/-- All three allocations succeed there, and so does `as_prepare_load`. -/
theorem spacious_prepared : ∃ attempt : Attempt none 1#32 spacious,
    [attempt.addr1, attempt.addr2, attempt.addr3] = [0x80001000#32, 0x80002000#32, 0x80003000#32] ∧
      Reports none 1#32 spacious [attempt.addr1, attempt.addr2, attempt.addr3] := by
  have reach : InReach spacious.coremap := by
    constructor
    · unfold Contiguous
      decide
    · decide
    · decide
  obtain ⟨attempt, addresses⟩ : ∃ attempt : Attempt none 1#32 spacious,
      [attempt.addr1, attempt.addr2, attempt.addr3] = [0x80001000#32, 0x80002000#32, 0x80003000#32] :=
    ⟨⟨_, _, _, _, _, _, reach, ⟨rfl, rfl, rfl⟩, .of_done rfl rfl (by decide),
      .of_done rfl rfl (by decide), .of_done rfl rfl (by decide)⟩, rfl⟩
  refine ⟨attempt, addresses, (prepare_load_reports_iff attempt).mpr ?_⟩
  rw [addresses]
  decide

/-- The same address space, with two frames, both in use. -/
def crowded : Machine := { spacious with
  coremap := (twoFrames.assign 0 none 0#32 .dirty).assign 1 none 0#32 .dirty }

/-- There is no frame for a region, but the answer is not `ENOMEM`: the kernel clears what it
takes for the region, at 0x80000000. -/
theorem full_memory_unreported : ∃ attempt : Attempt none 1#32 crowded,
    attempt.addr1 = 0#32 ∧ asPrepareLoad none 1#32 crowded = .stop .panic := by
  have null := And.intro (Eq.refl 0#32) (Eq.refl crowded.coremap)
  refine ⟨⟨0#32, 0#32, 0#32, _, _, _, ⟨?_, ?_, ?_⟩, ⟨rfl, rfl, rfl⟩, ⟨rfl, .inl null⟩,
    ⟨rfl, .inl null⟩, ⟨rfl, .inl null⟩⟩, rfl, rfl⟩
  · unfold Contiguous
    decide
  · decide
  · decide

end Os161.Vm
