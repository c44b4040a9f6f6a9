import Os161.Vm.Residue

/-!
# What a child sees after a fork

A page of the child is a frame that `vm_fault` has picked for it and that nobody has filled:
the bytes `as_copy` has copied are in other frames. Which frame that is follows from the
coremap before the fork, since `as_copy` takes its frames with `alloc_kpages`, first fit. The
child reads what the parent would have read exactly where that frame happened to hold the
byte before the fork. What one program writes later another never sees.
-/
namespace Os161.Vm

open Os161.Library Os161.Library.Program Os161.Library.Runs Os161.Vm.Residue Function

variable {before after machine : Machine} {address page pa : BitVec 32} {world : World}
  {as parent child : AsPtr} {j : Nat}

theorem aligned_of_page_frame (masked : pa &&& pageFrame = pa) : pa.toNat % pageSize = 0 := by
  rw [← offset_toNat, ← masked, BitVec.and_assoc, show pageFrame &&& ~~~pageFrame = 0#32 by decide,
    BitVec.and_zero]
  rfl

/-- A page of a region, counted from the start of its frames, is page-aligned. -/
theorem region_place_aligned {pbase : BitVec 32} {vbase : BitVec 32}
    (alignedPage : page.toNat % pageSize = 0) (alignedV : vbase.toNat % pageSize = 0)
    (alignedP : pbase.toNat % pageSize = 0) :
    ((page - vbase) + pbase) &&& pageFrame = (page - vbase) + pbase := by
  refine page_frame_of_aligned ?_
  rw [BitVec.toNat_add, BitVec.toNat_sub]
  unfold pageSize at *
  omega

/-- The copy of an address space is set up and has the same regions. -/
theorem Copied.region {before : Machine} {old new : AsPtr} (copied : Copied before after old new)
    {paddr : BitVec 32} (masked : page &&& pageFrame = page) (setUp : (before.spaces old).SetUp)
    (region : (before.spaces old).regionPaddr page = some paddr) :
    (after.spaces new).SetUp ∧ ∃ place, (after.spaces new).regionPaddr page = some place ∧
      place &&& pageFrame = place := by
  obtain ⟨pbase1, pbase2, stackpbase, spaces⟩ := copied.prepared
  obtain ⟨aligned1, aligned2, aligned3⟩ := copied.aligned
  obtain ⟨based1, based2, based3⟩ := copied.based
  have own : after.spaces new =
      ((before.spaces new).copied (before.spaces old)).prepared pbase1 pbase2 stackpbase := by
    rw [spaces, update_self]
  rw [own] at aligned1 aligned2 aligned3 based1 based2 based3 ⊢
  obtain ⟨vbase1, _, npages1, vbase2, _, npages2, _, maskedV1, _, maskedV2, _, _⟩ := setUp
  have aligned1 := aligned1 npages1
  have aligned2 := aligned2 npages2
  have alignedPage := aligned_of_page_frame masked
  refine ⟨⟨vbase1, based1, npages1, vbase2, based2, npages2, based3, maskedV1,
    page_frame_of_aligned aligned1, maskedV2, page_frame_of_aligned aligned2,
    page_frame_of_aligned aligned3⟩, ?_⟩
  simp only [AddrSpace.regionPaddr] at region
  by_cases first : page ≥ (before.spaces old).asVbase1 ∧
      page < (before.spaces old).asVbase1 + (before.spaces old).asNpages1 * 4096#32
  · exact ⟨_, if_pos first,
      region_place_aligned alignedPage (aligned_of_page_frame maskedV1) aligned1⟩
  rw [if_neg first] at region
  by_cases second : page ≥ (before.spaces old).asVbase2 ∧
      page < (before.spaces old).asVbase2 + (before.spaces old).asNpages2 * 4096#32
  · exact ⟨_, (if_neg first).trans (if_pos second),
      region_place_aligned alignedPage (aligned_of_page_frame maskedV2) aligned2⟩
  rw [if_neg second] at region
  by_cases stack : page ≥ userStack - stackPages * 4096#32 ∧ page < userStack
  · exact ⟨_, (if_neg first).trans ((if_neg second).trans (if_pos stack)),
      region_place_aligned alignedPage (by decide) aligned3⟩
  · rw [if_neg stack] at region
    cases region

/-- The first free frame of a coremap, frame 0 apart. -/
def firstFree (coremap : Coremap) : Option Nat :=
  (List.range' 1 (coremap.size - 1)).find? fun k => decide ((coremap.entries k).st = .free)

/-- The frame that is left for the first page of a child: the first free one once `as_copy` has
taken its frames from the coremap as it is before the fork. -/
def frameLeft (machine : Machine) (parent : AsPtr) : Option Nat :=
  ((takeFrames (some parent) [13, (machine.spaces parent).asNpages1.toNat,
    (machine.spaces parent).asNpages2.toNat, stackPages.toNat] machine.coremap).result.map
      Prod.snd).bind firstFree

/-- A free frame of the copied machine is the one `vm_fault` picks, and holds what it held. -/
theorem Copied.left {copied : Machine} (address : BitVec 32) (copy : Copied before copied parent child)
    (filled : Filled before copied) (contiguous : Contiguous before.coremap)
    (left : frameLeft before parent = some j) :
    pickFrame copied.coremap child = some j ∧
      copied.memory ((copied.coremap.entries j).pa + (address &&& ~~~pageFrame)) =
        before.memory ((before.coremap.entries j).pa + (address &&& ~~~pageFrame)) := by
  have found : firstFree copied.coremap = some j := by
    simpa only [frameLeft, copy.taken, Outcome.result, Option.map_some, Option.bind_some] using left
  unfold firstFree at found
  have free : (copied.coremap.entries j).st = .free := by
    simpa using List.find?_some found
  have inside : j < before.coremap.size := by
    have member := List.mem_range'_1.mp (List.mem_of_find?_eq_some found)
    rw [← copy.grown.size]
    omega
  have same := (filled.fills contiguous).memory j inside (fun taken => taken.2 free)
  rw [copy.grown.pa j]
  refine ⟨?_, same _ (page_offset_lt address)⟩
  simp only [pickFrame, found]

/-- Nothing has been started, and the frames are as `vm_bootstrap` numbers them. -/
def Booted (world : World) : Prop :=
  Started world ∧ Contiguous world.machine.coremap

/-- The world after a fork. -/
def World.forked (world : World) (copied : Machine) (child : AsPtr) : World where
  system := world.system.grow copied
  live := update world.live child true

end Os161.Vm
