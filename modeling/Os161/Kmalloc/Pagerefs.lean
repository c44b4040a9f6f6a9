import Os161.Kmalloc.Heap
import Mathlib.Order.Interval.Finset.Nat

/-!
# Page references

Sixteen pages hold the page references. The bits of a root are the references of its
page that are in use, and `numinuse` is their number; a root without a page has none in
use. `allocpageref` takes a reference that was not in use and `freepageref` lets go of
one that was, and neither changes the others.
-/
namespace Os161.Kmalloc

open Os161.Library Os161.Library.Program Function
open Ensures (bind_done)

/-- The bit of a page reference. -/
def KheapRoot.inuse (root : KheapRoot) (j : Nat) : Bool := (root.pagerefsInuse (j / 32)).getLsbD (j % 32)

/-- The page references of a root that are in use. -/
def KheapRoot.used (root : KheapRoot) : Finset Nat :=
  (Finset.range npagerefsPerPage).filter (fun j => root.inuse j = true)

theorem KheapRoot.mem_used (root : KheapRoot) (j : Nat) :
    j ∈ root.used ↔ j < npagerefsPerPage ∧ root.inuse j = true := by
  unfold KheapRoot.used
  rw [Finset.mem_filter, Finset.mem_range]

theorem shifted_one_bit {offset : Nat} {other : Nat} (inside : offset < 32) :
    (1#32 <<< offset).getLsbD other = decide (other = offset) := by
  grind

theorem and_mask (word : BitVec 32) {offset : Nat} (inside : offset < 32) :
    word &&& 1#32 <<< offset = 0#32 ↔ word.getLsbD offset = false := by
  constructor
  · intro zero
    have read : (word &&& 1#32 <<< offset).getLsbD offset = false := by
      rw [zero, BitVec.getLsbD_zero]
    rw [BitVec.getLsbD_and, shifted_one_bit inside, decide_eq_true rfl, Bool.and_true] at read
    exact read
  · intro clear
    refine BitVec.eq_of_getLsbD_eq (fun other _ => ?_)
    rw [BitVec.getLsbD_and, shifted_one_bit inside, BitVec.getLsbD_zero]
    by_cases here : other = offset
    · rw [here, clear, Bool.false_and]
    · rw [decide_eq_false here, Bool.and_false]

theorem clear_bit_found {word : BitVec 32} (not_full : word ≠ 0xffffffff#32) :
    ∃ j < 32, (List.range 32).find? (fun j => word &&& 1#32 <<< j = 0#32) = some j ∧
      word.getLsbD j = false := by
  cases searched : (List.range 32).find? (fun j => word &&& 1#32 <<< j = 0#32) with
  | some j =>
    have below : j < 32 := List.mem_range.mp (List.mem_of_find?_eq_some searched)
    have clear := List.find?_some searched
    exact ⟨j, below, rfl, (and_mask word below).mp (of_decide_eq_true clear)⟩
  | none =>
    refine absurd (BitVec.eq_of_getLsbD_eq (fun j below => ?_)) not_full
    have set := List.find?_eq_none.mp searched j (List.mem_range.mpr below)
    have bit : word.getLsbD j = true := by
      rw [decide_eq_true_eq, and_mask word below, Bool.not_eq_false] at set
      exact set
    rw [bit, show 0xffffffff#32 = BitVec.allOnes 32 from rfl, BitVec.getLsbD_allOnes, decide_eq_true below]

variable {j whichroot other : Nat}

theorem inuse_set (root : KheapRoot) (i other page numinuse : Nat) (inside : j < 32) :
    ({ page := page, numinuse := numinuse, pagerefsInuse := update root.pagerefsInuse i
        (root.pagerefsInuse i ||| 1#32 <<< j) } : KheapRoot).inuse other =
      (decide (other = i * 32 + j) || root.inuse other) := by
  unfold KheapRoot.inuse
  dsimp only
  by_cases word : other / 32 = i
  · subst word
    have same : other % 32 = j ↔ other = other / 32 * 32 + j := by omega
    rw [update_self, BitVec.getLsbD_or, shifted_one_bit inside, Bool.or_comm]
    simp [same]
  · have different : other ≠ i * 32 + j := by omega
    rw [update_of_ne word, decide_eq_false different, Bool.false_or]

theorem inuse_clear (root : KheapRoot) (j other page numinuse : Nat) :
    ({ page := page, numinuse := numinuse, pagerefsInuse := update root.pagerefsInuse (j / 32)
        (root.pagerefsInuse (j / 32) &&& ~~~ (1#32 <<< (j % 32))) } : KheapRoot).inuse other =
      (!decide (other = j) && root.inuse other) := by
  have inside : other % 32 < 32 := Nat.mod_lt _ (by decide)
  unfold KheapRoot.inuse
  dsimp only
  by_cases word : other / 32 = j / 32
  · have same : other % 32 = j % 32 ↔ other = j := by omega
    rw [word, update_self, BitVec.getLsbD_and, BitVec.getLsbD_not,
      shifted_one_bit (Nat.mod_lt _ (by decide)), decide_eq_true inside, Bool.true_and, Bool.and_comm]
    simp [same]
  · have different : other ≠ j := fun same => word (by rw [same])
    rw [update_of_ne word, decide_eq_false different, Bool.not_false, Bool.true_and]

variable {Kernel : Type} {out : Kernel → Nat → Prop}

variable {heap : Kheap Kernel}

/-- The page allocator hands out pages that nobody has, somewhere below the last page of
the address space, and keeps account of who has what. It need not answer at all. -/
structure FreshPages (allocKpages : Nat → Kernel → Option (Nat × Kernel))
    (freeKpages : Nat → Kernel → Kernel) (out : Kernel → Nat → Prop) : Prop where
  fresh : ∀ kernel page after, allocKpages 1 kernel = some (page, after) →
    page ≠ 0 ∧ page % pageSize = 0 ∧ page + pageSize < addressRange ∧ ¬ out kernel page
  taken : ∀ kernel page after, allocKpages 1 kernel = some (page, after) →
    ∀ p, out after p ↔ out kernel p ∨ p = page
  returned : ∀ kernel page p, out (freeKpages page kernel) p ↔ out kernel p ∧ p ≠ page

/-- A page reference is in use. -/
def Kheap.InUse (heap : Kheap Kernel) (pr : Nat) : Prop :=
  ∃ whichroot < numPagerefpages, ∃ j < npagerefsPerPage,
    (heap.kheaproots whichroot).inuse j = true ∧
      pr = (heap.kheaproots whichroot).page + j * pagerefSize

/-- What a root keeps between calls. -/
structure RootSound (out : Nat → Prop) (root : KheapRoot) : Prop where
  count : root.numinuse = root.used.card
  backed : root.page = 0 → root.numinuse = 0
  aligned : root.page % pageSize = 0
  bounded : root.page + pageSize < addressRange
  out : root.page ≠ 0 → out root.page

/-- What the roots keep between calls. -/
structure RootsSound (out : Kernel → Nat → Prop) (heap : Kheap Kernel) : Prop where
  root : ∀ whichroot < numPagerefpages, RootSound (out heap.kernel) (heap.kheaproots whichroot)
  apart : ∀ first < numPagerefpages, ∀ second < numPagerefpages, (heap.kheaproots first).page ≠ 0 →
    (heap.kheaproots first).page = (heap.kheaproots second).page → first = second

theorem RootSound.used_page {holds : Nat → Prop} {root : KheapRoot} (sound : RootSound holds root)
    (below : j < npagerefsPerPage) (inuse : root.inuse j = true) : root.page ≠ 0 := by
  intro missing
  have none_used := sound.count.symm.trans (sound.backed missing)
  have empty := Finset.card_eq_zero.mp none_used
  have member := (root.mem_used j).mpr ⟨below, inuse⟩
  rw [empty] at member
  exact absurd member (Finset.notMem_empty j)

/-- The address of a page reference has its page and its index. -/
theorem pageref_place {page i : Nat} (aligned : page % pageSize = 0)
    (other_aligned : other % pageSize = 0) (i_below : i < npagerefsPerPage)
    (j_below : j < npagerefsPerPage) (same : page + i * pagerefSize = other + j * pagerefSize) :
    page = other ∧ i = j := by
  unfold pagerefSize at same
  unfold npagerefsPerPage at i_below j_below
  unfold pageSize at aligned other_aligned
  omega

theorem RootsSound.injective (sound : RootsSound out heap) {first second i : Nat}
    (first_below : first < numPagerefpages) (second_below : second < numPagerefpages)
    (i_below : i < npagerefsPerPage) (j_below : j < npagerefsPerPage)
    (page : (heap.kheaproots first).page ≠ 0)
    (same : (heap.kheaproots first).page + i * pagerefSize =
      (heap.kheaproots second).page + j * pagerefSize) : first = second ∧ i = j := by
  obtain ⟨pages, index⟩ := pageref_place (sound.root first first_below).aligned
    (sound.root second second_below).aligned i_below j_below same
  exact ⟨sound.apart first first_below second second_below page pages, index⟩

/-- A page reference in use is on the page of a root, aligned and not null. -/
theorem RootsSound.in_use_place (sound : RootsSound out heap) {pr : Nat} (used : heap.InUse pr) :
    pr % pagerefSize = 0 ∧ pr ≠ 0 ∧
      ∃ whichroot < numPagerefpages, (heap.kheaproots whichroot).page ≠ 0 ∧
        pr / pageSize * pageSize = (heap.kheaproots whichroot).page := by
  obtain ⟨whichroot, below, j, j_below, bit, rfl⟩ := used
  have root := sound.root whichroot below
  have page := root.used_page j_below bit
  have aligned := root.aligned
  unfold pagerefSize pageSize
  unfold pageSize at aligned
  unfold npagerefsPerPage at j_below
  exact ⟨by omega, by omega, whichroot, below, page, by omega⟩

theorem Kheap.in_use_length (heap : Kheap Kernel) {refs : List Nat} (nodup : refs.Nodup)
    (used : ∀ pr ∈ refs, heap.InUse pr) : refs.length ≤ totalPagerefs := by
  let places := (List.range numPagerefpages).flatMap (fun whichroot =>
    (List.range npagerefsPerPage).map (fun j => (heap.kheaproots whichroot).page + j * pagerefSize))
  have within : refs ⊆ places := by
    intro pr member
    obtain ⟨whichroot, below, j, j_below, _, place⟩ := used pr member
    refine List.mem_flatMap.mpr ⟨whichroot, List.mem_range.mpr below, ?_⟩
    exact List.mem_map.mpr ⟨j, List.mem_range.mpr j_below, place.symm⟩
  have length : places.length = totalPagerefs := by
    simp only [places, List.length_flatMap, List.length_map, List.length_range, List.map_const',
      List.sum_replicate_nat]
    rfl
  exact length ▸ (nodup.subperm within).length_le

/-- What `freepageref` does. -/
structure Released (out : Kernel → Nat → Prop) (heap : Kheap Kernel) (pr : Nat)
    (after : Kheap Kernel) : Prop where
  memory : after.memory = heap.memory
  sizebases : after.sizebases = heap.sizebases
  allbase : after.allbase = heap.allbase
  kernel : after.kernel = heap.kernel
  pages : ∀ whichroot, (after.kheaproots whichroot).page = (heap.kheaproots whichroot).page
  sound : RootsSound out after
  inuse : ∀ other, after.InUse other ↔ heap.InUse other ∧ other ≠ pr

/-- The bit of a page reference is cleared and counted. -/
theorem released_root (sound : RootsSound out heap) (below : whichroot < numPagerefpages)
    (j_below : j < npagerefsPerPage) (bit : (heap.kheaproots whichroot).inuse j = true)
    {root : KheapRoot} (page : root.page = (heap.kheaproots whichroot).page)
    (count : root.numinuse = (heap.kheaproots whichroot).numinuse - 1)
    (cleared : ∀ other, root.inuse other =
      (!decide (other = j) && (heap.kheaproots whichroot).inuse other)) :
    Released out heap ((heap.kheaproots whichroot).page + j * pagerefSize)
      { heap with kheaproots := update heap.kheaproots whichroot root } := by
  have before := sound.root whichroot below
  have real := before.used_page j_below bit
  have used : root.used = (heap.kheaproots whichroot).used.erase j := by
    ext other
    rw [Finset.mem_erase, KheapRoot.mem_used, KheapRoot.mem_used, cleared]
    simp only [Bool.and_eq_true, Bool.not_eq_true', decide_eq_false_iff_not, ne_eq]
    exact and_left_comm
  have root_sound : RootSound (out heap.kernel) root :=
    { count := by
        rw [used, Finset.card_erase_of_mem ((KheapRoot.mem_used _ j).mpr ⟨j_below, bit⟩), count,
          before.count]
      backed := fun missing => absurd (page.symm.trans missing) real
      aligned := page ▸ before.aligned
      bounded := page ▸ before.bounded
      out := fun _ => page ▸ before.out real }
  have pages : ∀ other, (update heap.kheaproots whichroot root other).page =
      (heap.kheaproots other).page := by
    intro other
    by_cases same : other = whichroot
    · rw [same, update_self, page]
    · rw [update_of_ne same]
  refine ⟨rfl, rfl, rfl, rfl, pages, ⟨?_, ?_⟩, ?_⟩
  · intro other other_below
    show RootSound (out heap.kernel) (update heap.kheaproots whichroot root other)
    by_cases same : other = whichroot
    · rw [same, update_self]
      exact root_sound
    · rw [update_of_ne same]
      exact sound.root other other_below
  · intro first first_below second second_below
    show (update heap.kheaproots whichroot root first).page ≠ 0 → _
    rw [pages, pages]
    exact sound.apart first first_below second second_below
  · intro pr
    have bits : ∀ w k, (update heap.kheaproots whichroot root w).inuse k = true ↔
        (heap.kheaproots w).inuse k = true ∧ ¬ (w = whichroot ∧ k = j) := by
      intro w k
      by_cases same : w = whichroot
      · rw [same, update_self, cleared]
        simp [and_comm]
      · simp [same]
    constructor
    · rintro ⟨w, w_below, k, k_below, k_bit, rfl⟩
      obtain ⟨was, other⟩ := (bits w k).mp k_bit
      refine ⟨⟨w, w_below, k, k_below, was, by rw [pages]⟩, fun same => other ?_⟩
      rw [pages] at same
      exact sound.injective w_below below k_below j_below
        ((sound.root w w_below).used_page k_below was) same
    · rintro ⟨⟨w, w_below, k, k_below, k_bit, rfl⟩, different⟩
      refine ⟨w, w_below, k, k_below, (bits w k).mpr ⟨k_bit, ?_⟩, by rw [pages]⟩
      rintro ⟨rfl, rfl⟩
      exact different rfl

theorem pageref_index_self (page : Nat) (below : j < npagerefsPerPage) :
    pagerefIndex (page + j * pagerefSize) page = j := by
  unfold pagerefIndex pagerefSize addressRange
  unfold npagerefsPerPage at below
  omega

theorem pageref_index_elsewhere {page : Nat} (below : j < npagerefsPerPage)
    (aligned : page % pageSize = 0) (other_aligned : other % pageSize = 0)
    (bounded : page + pageSize < addressRange) (other_bounded : other + pageSize < addressRange)
    (different : page ≠ other) :
    ¬ pagerefIndex (page + j * pagerefSize) other < npagerefsPerPage := by
  unfold pagerefIndex pagerefSize addressRange npagerefsPerPage
  unfold pageSize at aligned other_aligned bounded other_bounded
  unfold addressRange at bounded other_bounded
  unfold npagerefsPerPage at below
  omega

section

variable (sound : RootsSound out heap) (below : whichroot < numPagerefpages)
  (j_below : j < npagerefsPerPage) (bit : (heap.kheaproots whichroot).inuse j = true)

include sound below j_below bit

/-- Clearing the bit of a page reference that is in use. -/
theorem drop_pageref_ensures : Succeeds (dropPageref whichroot j) heap
      (fun _ => Released out heap ((heap.kheaproots whichroot).page + j * pagerefSize)) := by
  have inside : j % 32 < 32 := Nat.mod_lt _ (by decide)
  refine bind_done rfl (bind_done (check_passes ?_) ?_)
  · rw [ne_eq, and_mask _ inside, Bool.not_eq_false]
    exact bit
  · refine bind_done rfl (bind_done (check_passes ?_) (ensures_change ?_))
    · show 0 < (heap.kheaproots whichroot).numinuse
      rw [(sound.root whichroot below).count]
      exact Finset.card_pos.mpr ⟨j, (KheapRoot.mem_used _ j).mpr ⟨j_below, bit⟩⟩
    · have cleared := inuse_clear (heap.kheaproots whichroot) j
      simp only [Kheap.setRoot, update_self, update_idem]
      exact released_root sound below j_below bit rfl rfl (fun k => cleared k _ _)

/-- `freepageref` from some root on, when the page reference is on the page of one of
those that are left. -/
theorem freepageref_from_ensures
    {roots : List Nat} (roots_below : ∀ other ∈ roots, other < numPagerefpages)
    (member : whichroot ∈ roots) :
    Succeeds (freepagerefFrom ((heap.kheaproots whichroot).page + j * pagerefSize) roots) heap
      (fun _ => Released out heap ((heap.kheaproots whichroot).page + j * pagerefSize)) := by
  have this_sound := sound.root whichroot below
  have real := this_sound.used_page j_below bit
  induction roots with
  | nil => cases member
  | cons other rest ih =>
    have other_below := roots_below other List.mem_cons_self
    have later := fun elsewhere => ih
      (fun root member => roots_below root (List.mem_cons_of_mem other member))
      ((List.mem_cons.mp member).resolve_left elsewhere)
    have other_sound := sound.root other other_below
    refine bind_done rfl ?_
    by_cases missing : (heap.kheaproots other).page = 0
    · simp only [id, if_pos missing]
      refine bind_done (check_passes (other_sound.backed missing)) ?_
      exact later (fun same => real (same ▸ missing))
    obtain rfl | here := eq_or_ne whichroot other
    · simp only [id, if_neg missing, pageref_index_self _ j_below, if_pos j_below]
      exact drop_pageref_ensures sound below j_below bit
    have different : (heap.kheaproots whichroot).page ≠ (heap.kheaproots other).page :=
      fun same => here (sound.apart whichroot below other other_below real same)
    have elsewhere := pageref_index_elsewhere j_below this_sound.aligned other_sound.aligned
      this_sound.bounded other_sound.bounded different
    simp only [id, if_neg missing, if_neg elsewhere]
    exact later here

end

/-- `freepageref` lets go of a page reference that is in use. -/
theorem freepageref_ensures (sound : RootsSound out heap) {pr : Nat} (used : heap.InUse pr) :
    Succeeds (freepageref pr) heap (fun _ => Released out heap pr) := by
  obtain ⟨whichroot, below, j, j_below, bit, rfl⟩ := used
  exact freepageref_from_ensures sound below j_below bit
    (fun _ member => List.mem_range.mp member) (List.mem_range.mpr below)

/-- What `allocpageref` does when it returns a page reference. -/
structure Obtained (out : Kernel → Nat → Prop) (heap : Kheap Kernel) (pr : Nat)
    (after : Kheap Kernel) : Prop where
  memory : after.memory = heap.memory
  sizebases : after.sizebases = heap.sizebases
  allbase : after.allbase = heap.allbase
  kept : ∀ p, out heap.kernel p → out after.kernel p
  pages : ∀ whichroot < numPagerefpages, (after.kheaproots whichroot).page =
    (heap.kheaproots whichroot).page ∨ ¬ out heap.kernel (after.kheaproots whichroot).page
  sound : RootsSound out after
  fresh : ¬ heap.InUse pr
  inuse : ∀ other, after.InUse other ↔ heap.InUse other ∨ other = pr

/-- What becomes of a root when a bit of it is set and counted, on the page the root has or
on a new one. -/
structure TakesBit (out : Kernel → Nat → Prop) (heap : Kheap Kernel) (kernel : Kernel)
    (whichroot j : Nat) (root : KheapRoot) : Prop where
  below : whichroot < numPagerefpages
  j_below : j < npagerefsPerPage
  clear : (heap.kheaproots whichroot).inuse j = false
  kept : ∀ p, out heap.kernel p → out kernel p
  real : root.page ≠ 0
  page : root.page = (heap.kheaproots whichroot).page ∨
    (heap.kheaproots whichroot).page = 0 ∧ ¬ out heap.kernel root.page
  aligned : root.page % pageSize = 0
  bounded : root.page + pageSize < addressRange
  taken : out kernel root.page
  count : root.numinuse = (heap.kheaproots whichroot).numinuse + 1
  set : ∀ other, root.inuse other = (decide (other = j) || (heap.kheaproots whichroot).inuse other)

section TakesBit

variable {heap : Kheap Kernel} {kernel : Kernel} {whichroot j : Nat} {root : KheapRoot}

section

variable (takes : TakesBit out heap kernel whichroot j root)

include takes

theorem TakesBit.used : root.used = insert j (heap.kheaproots whichroot).used := by
  have j_below := takes.j_below
  ext other
  rw [Finset.mem_insert, KheapRoot.mem_used, KheapRoot.mem_used, takes.set]
  grind

theorem TakesBit.root_sound (sound : RootsSound out heap) : RootSound (out kernel) root where
  count := by
    rw [takes.used, Finset.card_insert_of_notMem, takes.count, (sound.root _ takes.below).count]
    rw [KheapRoot.mem_used, takes.clear]
    simp
  backed := fun missing => absurd missing takes.real
  aligned := takes.aligned
  bounded := takes.bounded
  out := fun _ => takes.taken

/-- The page of the root is none of the pages of the others. -/
theorem TakesBit.other_page (sound : RootsSound out heap) (other_below : other < numPagerefpages)
    (different : other ≠ whichroot) (other_real : (heap.kheaproots other).page ≠ 0) :
    (heap.kheaproots other).page ≠ root.page := by
  intro same
  rcases takes.page with old | ⟨_, new⟩
  · exact different (sound.apart other other_below whichroot takes.below other_real (same.trans old))
  · exact new (same ▸ (sound.root other other_below).out other_real)

theorem TakesBit.used_page (sound : RootsSound out heap) {w k : Nat}
    (k_below : k < npagerefsPerPage) (k_bit : (heap.kheaproots w).inuse k = true) :
    (update heap.kheaproots whichroot root w).page = (heap.kheaproots w).page := by
  obtain rfl | same := eq_or_ne w whichroot
  · rw [update_self]
    rcases takes.page with old | ⟨missing, _⟩
    · exact old
    · exact absurd missing ((sound.root w takes.below).used_page k_below k_bit)
  · rw [update_of_ne same]

theorem TakesBit.bits (w k : Nat) : (update heap.kheaproots whichroot root w).inuse k = true ↔
      (heap.kheaproots w).inuse k = true ∨ (w = whichroot ∧ k = j) := by
  by_cases same : w = whichroot
  · rw [same, update_self, takes.set]
    simp [or_comm]
  · simp [same]

/-- Taking a free reference of a root page keeps the root pages sound. -/
theorem TakesBit.roots_sound (sound : RootsSound out heap) : RootsSound out { heap with
      kheaproots := update heap.kheaproots whichroot root, kernel := kernel } := by
  refine ⟨?_, ?_⟩
  · intro w w_below
    show RootSound (out kernel) (update heap.kheaproots whichroot root w)
    by_cases same : w = whichroot
    · rw [same, update_self]
      exact takes.root_sound sound
    · rw [update_of_ne same]
      have w_sound := sound.root w w_below
      exact { w_sound with out := fun w_real => takes.kept _ (w_sound.out w_real) }
  · intro first first_below second second_below
    show (update heap.kheaproots whichroot root first).page ≠ 0 →
      (update heap.kheaproots whichroot root first).page =
        (update heap.kheaproots whichroot root second).page → _
    by_cases first_is : first = whichroot
    · by_cases second_is : second = whichroot
      · intro _ _
        rw [first_is, second_is]
      · rw [first_is, update_self, update_of_ne second_is]
        intro _ same
        exact absurd same.symm (takes.other_page sound second_below second_is (same ▸ takes.real))
    · by_cases second_is : second = whichroot
      · rw [second_is, update_self, update_of_ne first_is]
        intro first_real same
        exact absurd same (takes.other_page sound first_below first_is first_real)
      · rw [update_of_ne first_is, update_of_ne second_is]
        exact sound.apart first first_below second second_below

theorem TakesBit.fresh (sound : RootsSound out heap) :
    ¬ heap.InUse (root.page + j * pagerefSize) := by
  rintro ⟨w, w_below, k, k_below, k_bit, place⟩
  have w_real := (sound.root w w_below).used_page k_below k_bit
  obtain ⟨same_page, rfl⟩ :=
    pageref_place takes.aligned (sound.root w w_below).aligned takes.j_below k_below place
  obtain rfl | same := eq_or_ne w whichroot
  · exact absurd (k_bit.symm.trans takes.clear) (by decide)
  · exact takes.other_page sound w_below same w_real same_page.symm

/-- The page references in use are those from before and that of the bit. -/
theorem TakesBit.in_use (sound : RootsSound out heap) (pr : Nat) : Kheap.InUse { heap with
        kheaproots := update heap.kheaproots whichroot root, kernel := kernel } pr ↔
      heap.InUse pr ∨ pr = root.page + j * pagerefSize := by
  constructor
  · rintro ⟨w, w_below, k, k_below, k_bit, place⟩
    rcases (takes.bits w k).mp k_bit with was | ⟨rfl, rfl⟩
    · refine Or.inl ⟨w, w_below, k, k_below, was, place.trans ?_⟩
      exact congrArg (· + k * pagerefSize) (takes.used_page sound k_below was)
    · refine Or.inr (place.trans ?_)
      show (update heap.kheaproots w root w).page + _ = _
      rw [update_self]
  · rintro (⟨w, w_below, k, k_below, k_bit, rfl⟩ | rfl)
    · refine ⟨w, w_below, k, k_below, (takes.bits w k).mpr (Or.inl k_bit), ?_⟩
      exact congrArg (· + k * pagerefSize) (takes.used_page sound k_below k_bit).symm
    · refine ⟨whichroot, takes.below, j, takes.j_below, (takes.bits _ _).mpr (Or.inr ⟨rfl, rfl⟩), ?_⟩
      show _ = (update heap.kheaproots whichroot root whichroot).page + _
      rw [update_self]

theorem TakesBit.obtained (sound : RootsSound out heap) :
    Obtained out heap (root.page + j * pagerefSize) { heap with
      kheaproots := update heap.kheaproots whichroot root, kernel := kernel } := by
  refine ⟨rfl, rfl, rfl, takes.kept, fun w _ => ?_, takes.roots_sound sound, takes.fresh sound,
    takes.in_use sound⟩
  show (update heap.kheaproots whichroot root w).page = _ ∨
    ¬ out heap.kernel (update heap.kheaproots whichroot root w).page
  obtain rfl | same := eq_or_ne w whichroot
  · rw [update_self]
    exact takes.page.imp_right And.right
  · rw [update_of_ne same]
    exact Or.inl rfl

end

end TakesBit

section

variable {allocKpages : Nat → Kernel → Option (Nat × Kernel)} {freeKpages : Nat → Kernel → Kernel}

section

variable (pages : FreshPages allocKpages freeKpages out)

include pages

/-- A call of the page allocator gets a fresh page or is left unanswered. -/
theorem call_alloc_kpages_ensures {heap : Kheap Kernel} :
    Ensures False (callAllocKpages allocKpages 1) heap
      (fun page after => ∃ kernel, allocKpages 1 heap.kernel = some (page, kernel) ∧
        after = { heap with kernel := kernel } ∧ page ≠ 0 ∧ page % pageSize = 0 ∧
        page + pageSize < addressRange ∧ ¬ out heap.kernel page ∧
        ∀ p, out kernel p ↔ out heap.kernel p ∨ p = page)
      (fun _ _ => allocKpages 1 heap.kernel = none) := by
  constructor
  unfold callAllocKpages
  cases answer : allocKpages 1 heap.kernel with
  | none => exact rfl
  | some answered =>
    obtain ⟨page, kernel⟩ := answered
    obtain ⟨real, aligned, bounded, fresh⟩ := pages.fresh _ _ _ answer
    exact ⟨kernel, rfl, rfl, real, aligned, bounded, fresh, pages.taken _ _ _ answer⟩

/-- `allocpagerefpage` gives a root that has no page a fresh one. -/
theorem allocpagerefpage_ensures (heap : Kheap Kernel) (whichroot : Nat)
    (missing : (heap.kheaproots whichroot).page = 0) :
    Ensures False (allocpagerefpage allocKpages freeKpages whichroot) heap
      (fun _ after => ∃ kernel page, after = { heap with
          kernel := kernel
          kheaproots := update heap.kheaproots whichroot
            { heap.kheaproots whichroot with page := page } } ∧
        page ≠ 0 ∧ page % pageSize = 0 ∧ page + pageSize < addressRange ∧ ¬ out heap.kernel page ∧
        ∀ p, out kernel p ↔ out heap.kernel p ∨ p = page)
      (fun _ _ => allocKpages 1 heap.kernel = none) := by
  refine bind_done rfl (bind_done (check_passes missing) ?_)
  refine Ensures.bind (call_alloc_kpages_ensures pages) ?_
  rintro page _ ⟨kernel, _, rfl, real, aligned, bounded, fresh, taken⟩
  rw [if_neg real]
  refine bind_done (check_passes aligned) (bind_done rfl ?_)
  simp only [id, missing, ne_eq, not_true, if_false]
  exact ensures_change ⟨kernel, page, rfl, real, aligned, bounded, fresh, taken⟩

/-- Taking the page reference of a bit that is clear. -/
theorem take_pageref_ensures {heap : Kheap Kernel} (sound : RootsSound out heap)
    {whichroot i j : Nat} (below : whichroot < numPagerefpages) (i_below : i < inuseWords)
    (j_below : j < 32) (bit : ((heap.kheaproots whichroot).pagerefsInuse i).getLsbD j = false) :
    Ensures False (takePageref allocKpages freeKpages whichroot i j) heap
      (fun pr after => pr ≠ 0 ∧ Obtained out heap pr after)
      (fun _ _ => allocKpages 1 heap.kernel = none) := by
  have index_below : i * 32 + j < npagerefsPerPage := by
    unfold inuseWords at i_below
    unfold npagerefsPerPage
    omega
  have clear : (heap.kheaproots whichroot).inuse (i * 32 + j) = false := by
    unfold KheapRoot.inuse
    rw [show (i * 32 + j) / 32 = i by omega, show (i * 32 + j) % 32 = j by omega]
    exact bit
  have marked := fun other page numinuse =>
    inuse_set (heap.kheaproots whichroot) i other page numinuse j_below
  have place : ∀ page, page + pageSize < addressRange →
      (page + (i * 32 + j) * pagerefSize) % addressRange = page + (i * 32 + j) * pagerefSize := by
    intro page bounded
    refine Nat.mod_eq_of_lt ?_
    unfold npagerefsPerPage at index_below
    unfold pageSize at bounded
    unfold pagerefSize
    omega
  have before := sound.root whichroot below
  unfold takePageref
  refine bind_done rfl (bind_done rfl ?_)
  simp only [id, Kheap.setRoot]
  by_cases missing : (heap.kheaproots whichroot).page = 0
  · simp only [onlyIf, update_self, if_pos missing]
    refine Ensures.bind (allocpagerefpage_ensures pages _ whichroot
      (by simpa only [update_self] using missing)) ?_
    rintro _ _ ⟨kernel, page, rfl, real, aligned, bounded, fresh, taken⟩
    refine bind_done rfl ?_
    simp only [id, update_self, update_idem, real, if_false, place page bounded]
    refine ensures_pure ⟨by omega, ?_⟩
    have takes : TakesBit out heap kernel whichroot (i * 32 + j) ⟨page, _, _⟩ :=
      ⟨below, index_below, clear, fun p held => (taken p).mpr (Or.inl held), real,
        Or.inr ⟨missing, fresh⟩, aligned, bounded, (taken page).mpr (Or.inr rfl), rfl,
        fun other => marked other _ _⟩
    exact takes.obtained sound
  · simp only [onlyIf, update_self, if_neg missing]
    refine bind_done rfl (bind_done rfl ?_)
    simp only [id, update_self, missing, if_false, place _ before.bounded]
    refine ensures_pure ⟨by omega, ?_⟩
    have takes : TakesBit out heap heap.kernel whichroot (i * 32 + j)
        ⟨(heap.kheaproots whichroot).page, update (heap.kheaproots whichroot).pagerefsInuse i
          ((heap.kheaproots whichroot).pagerefsInuse i ||| 1#32 <<< j),
          (heap.kheaproots whichroot).numinuse + 1⟩ :=
      ⟨below, index_below, clear, fun _ held => held, missing, Or.inl rfl, before.aligned,
        before.bounded, before.out missing, rfl, fun other => marked other _ _⟩
    exact takes.obtained sound

/-- `allocpageref` from some root on: it returns null and changes nothing, or it returns
a page reference that was not in use. -/
theorem allocpageref_from_ensures {heap : Kheap Kernel} (sound : RootsSound out heap)
    (roots : List Nat) (roots_below : ∀ root ∈ roots, root < numPagerefpages) :
    Ensures False (allocpagerefFrom allocKpages freeKpages roots) heap
      (fun pr after => (pr = 0 ∧ after = heap) ∨ (pr ≠ 0 ∧ Obtained out heap pr after))
      (fun _ _ => allocKpages 1 heap.kernel = none) := by
  induction roots with
  | nil => exact ensures_pure (Or.inl ⟨rfl, rfl⟩)
  | cons whichroot rest ih =>
    have below := roots_below whichroot List.mem_cons_self
    have later := ih (fun root member => roots_below root (List.mem_cons_of_mem whichroot member))
    refine bind_done rfl ?_
    by_cases full : npagerefsPerPage ≤ (heap.kheaproots whichroot).numinuse
    · simp only [id, if_pos full]
      exact later
    simp only [id, if_neg full]
    split
    next => exact later
    next i word =>
      have i_below : i < inuseWords := List.mem_range.mp (List.mem_of_find?_eq_some word)
      have tested := List.find?_some word
      have not_full := of_decide_eq_true tested
      obtain ⟨j, j_below, found, clear⟩ := clear_bit_found not_full
      rw [found]
      exact (take_pageref_ensures pages sound below i_below j_below clear).on_return
        (fun _ _ obtained => Or.inr obtained)

theorem allocpageref_ensures {heap : Kheap Kernel} (sound : RootsSound out heap) :
    Ensures False (allocpageref allocKpages freeKpages) heap
      (fun pr after => (pr = 0 ∧ after = heap) ∨ (pr ≠ 0 ∧ Obtained out heap pr after))
      (fun _ _ => allocKpages 1 heap.kernel = none) :=
  allocpageref_from_ensures pages sound _ (fun _ member => List.mem_range.mp member)

end

end

end Os161.Kmalloc
