import Os161.Kmalloc.Book

/-!
# Allocating a block

`kmalloc` takes the first free block of a page that has one. If no page of the right
block size has one, it gets a page, threads all its blocks onto the free list, the last
one first, and puts a page reference for it in front of both lists.
-/
namespace Os161.Kmalloc

open Os161.Library Os161.Library.Chain Os161.Library.Program Function
open Ensures (bind_done)

variable {Kernel : Type} {out : Kernel → Nat → Prop}

section

variable {heap after : Kheap Kernel} {pr addr kind : Nat}

/-- A page reference is not on a page. -/
def Elsewhere (pr addr : Nat) : Prop :=
  ∀ offset < pagerefSize, ∀ a, addr ≤ a → a < addr + pageSize → pr + offset ≠ a

/-- A page reference is not in a page that the references manage. -/
theorem Placed.elsewhere {book : Book} (placed : Placed out heap book) {other : Nat}
    (member : pr ∈ book.refs) (other_member : other ∈ book.refs) :
    Elsewhere pr (book.addr other) :=
  fun _ inside _ low high => placed.field_apart member other_member inside low high

theorem Elsewhere.not_field (elsewhere : Elsewhere pr addr) {a : Nat} (low : addr ≤ a)
    (high : a < addr + pageSize) (offset : Nat) (inside : offset < pagerefSize) : a ≠ pr + offset :=
  fun same => elsewhere offset inside a low high same.symm

theorem set_nfree_self {nfree : Nat} : (heap.setNfree pr nfree).nfree pr = nfree % halfwordRange :=
  update_self _ _ _

theorem set_nfree_of_ne {nfree : Nat} {a : Nat} (other : a ≠ pr + 14) :
    (heap.setNfree pr nfree).memory a = heap.memory a :=
  update_of_ne other _ _

theorem set_freelist_offset_self (offset : Nat) :
    (heap.setFreelistOffset pr offset).freelistOffset pr = offset % halfwordRange :=
  update_self _ _ _

theorem set_freelist_offset_of_ne {offset : Nat} {a : Nat} (other : a ≠ pr + 12) :
    (heap.setFreelistOffset pr offset).memory a = heap.memory a :=
  update_of_ne other _ _

section

variable {holds : Nat → Prop}

/-- Masking the packed word gives the page back, since pages are aligned. -/
theorem pageaddr_of_named (known : kind < nsizes) (area : Area holds addr)
    (named : heap.pageaddrAndBlocktype pr = addr + kind) : heap.prPageaddr pr = addr := by
  have aligned := area.aligned
  unfold Kheap.prPageaddr
  unfold pageSize at *
  unfold nsizes at known
  omega

/-- The offset of a block in its page gives the block back. -/
theorem free_link_of_offset {fl : Nat} (known : kind < nsizes) (area : Area holds addr)
    (named : heap.pageaddrAndBlocktype pr = addr + kind) (low : addr ≤ fl)
    (high : fl < addr + pageSize) (offset : heap.freelistOffset pr = fl - addr) :
    heap.freeLink pr none = fl := by
  simp only [Kheap.freeLink, pageaddr_of_named known area named, offset]
  rw [if_neg, Nat.add_sub_cancel' low]
  unfold pageSize at high
  unfold invalidOffset
  omega

/-- The first free block is taken off the free list of its page. -/
theorem PageSound.pop {x : Nat} {rest : List Nat}
    (sound : PageSound heap pr addr kind (x :: rest)) (elsewhere : Elsewhere pr addr)
    {nfree offset : Nat} (count : nfree % halfwordRange = rest.length)
    (first : ((heap.setNfree pr nfree).setFreelistOffset pr offset).freeLink pr none = heap.memory x) :
    OnPage heap pr addr ((heap.setNfree pr nfree).setFreelistOffset pr offset) ∧
      PageSound ((heap.setNfree pr nfree).setFreelistOffset pr offset) pr addr kind rest := by
  have memory : ∀ a, a ≠ pr + 12 → a ≠ pr + 14 →
      ((heap.setNfree pr nfree).setFreelistOffset pr offset).memory a = heap.memory a := by
    intro a not_offset not_nfree
    rw [set_freelist_offset_of_ne not_offset, set_nfree_of_ne not_nfree]
  refine ⟨⟨rfl, rfl, rfl, rfl, fun a not_offset not_nfree _ => memory a not_offset not_nfree⟩, ?_⟩
  have nodup := List.nodup_cons.mp sound.nodup
  refine ⟨sound.known, ?_, ?_, ?_, nodup.2, List.subset_of_cons_subset sound.within⟩
  · exact (memory (pr + 8) (by omega) (by omega)).trans sound.named
  · show ((heap.setNfree pr nfree).setFreelistOffset pr offset).memory (pr + 14) = rest.length
    rw [set_freelist_offset_of_ne (by omega), ← count]
    exact set_nfree_self
  · refine sound.linked.2.2.redirect first (fun y member => ?_)
    obtain ⟨low, high, _⟩ := (mem_blocks addr y sound.known).mp
      (sound.within (List.mem_cons_of_mem x member))
    exact memory y (elsewhere.not_field low high 12 (by decide))
      (elsewhere.not_field low high 14 (by decide))

/-- `doalloc` takes the first free block of a page and leaves the others in order. The new head is
the next block of the list, or none when the count has come to zero. -/
theorem doalloc_ensures {x : Nat} {rest : List Nat} (area : Area holds addr)
    (sound : PageSound heap pr addr kind (x :: rest)) (elsewhere : Elsewhere pr addr) :
    Succeeds (doalloc pr) heap
      (fun p after => p = x ∧ OnPage heap pr addr after ∧ PageSound after pr addr kind rest) := by
  obtain ⟨offset, low, high⟩ := sound.offset_of_cons area
  have bounded := area.bounded
  have small := sound.length_le
  have few : pageSize / sizes kind ≤ 256 := by
    rcases sizes_cases sound.known with size | size | size | size | size | size | size | size <;>
      rw [size] <;> decide
  rw [List.length_cons] at small
  have count := sound.count
  rw [List.length_cons] at count
  have counted : (heap.nfree pr + halfwordRange - 1) % halfwordRange = rest.length := by
    unfold halfwordRange
    omega
  have place : (addr + (x - addr)) % addressRange = x := by
    rw [Nat.add_sub_cancel' low]
    exact Nat.mod_eq_of_lt (by omega)
  have named : ∀ offset, ((heap.setNfree pr (heap.nfree pr + halfwordRange - 1)).setFreelistOffset pr
      offset).pageaddrAndBlocktype pr = addr + kind := by
    intro offset
    show ((heap.setNfree pr _).setFreelistOffset pr offset).memory (pr + 8) = _
    rw [set_freelist_offset_of_ne (by omega), set_nfree_of_ne (by omega)]
    exact sound.named
  have left : (heap.setNfree pr (heap.nfree pr + halfwordRange - 1)).nfree pr = rest.length :=
    (set_nfree_self).trans counted
  unfold doalloc
  refine bind_done rfl (bind_done (check_passes ?_) ?_)
  · show heap.freelistOffset pr < pageSize
    omega
  · simp only [id, sound.pageaddr area, offset, place]
    refine bind_done rfl (bind_done rfl ?_)
    cases rest with
    | nil =>
      have ended : heap.memory x = 0 := sound.linked.2.2
      rw [if_neg (fun some_block => some_block ended)]
      refine bind_done (check_passes left) (bind_done rfl (ensures_pure ⟨rfl, ?_⟩))
      refine sound.pop elsewhere counted ?_
      rw [ended]
      simp only [Kheap.freeLink, set_freelist_offset_self]
      rfl
    | cons y rest =>
      obtain ⟨next, real, _⟩ := sound.linked.2.2
      have next_is : heap.memory x = y := next
      obtain ⟨y_low, y_high, _⟩ := (mem_blocks addr y sound.known).mp
        (sound.within (List.mem_cons_of_mem x List.mem_cons_self))
      have y_offset : (y + addressRange - addr) % addressRange = y - addr := by
        unfold addressRange at bounded ⊢
        omega
      rw [next_is, if_pos real, y_offset]
      refine bind_done (check_passes ?_) (bind_done (check_passes ?_)
        (bind_done rfl (ensures_pure ⟨rfl, ?_⟩)))
      · exact left ▸ Nat.succ_pos _
      · rw [sound.pageaddr area, offset, place, next_is, y_offset]
        omega
      refine sound.pop elsewhere counted ?_
      rw [next_is]
      refine free_link_of_offset sound.known area (named _) y_low y_high ?_
      rw [set_freelist_offset_self]
      refine Nat.mod_eq_of_lt ?_
      unfold pageSize at y_high
      unfold halfwordRange
      omega

/-- The links of a chain of blocks that starts at a given one. -/
def chain (memory : Nat → Nat) (fl : Nat) : Option Nat → Nat
  | none => fl
  | some block => memory block

/-- A page has at least two blocks and at most 256, and they fill it. -/
theorem few_blocks {kind : Nat} (known : kind < nsizes) :
    2 ≤ pageSize / sizes kind ∧ pageSize / sizes kind ≤ 256 ∧
      pageSize / sizes kind * sizes kind = pageSize ∧ 16 ≤ sizes kind := by
  rcases sizes_cases known with size | size | size | size | size | size | size | size <;>
    rw [size] <;> decide

/-- Every block of a page ends inside it. -/
theorem block_bounds {i : Nat} (known : kind < nsizes) (below : i < pageSize / sizes kind) :
    i * sizes kind + sizes kind ≤ pageSize := by
  obtain ⟨_, _, whole, _⟩ := few_blocks known
  calc i * sizes kind + sizes kind = (i + 1) * sizes kind := (Nat.succ_mul i _).symm
    _ ≤ pageSize / sizes kind * sizes kind := Nat.mul_le_mul_right _ below
    _ = pageSize := whole

/-- The heap changed on a page only. -/
structure WithinPage (heap : Kheap Kernel) (addr : Nat) (after : Kheap Kernel) : Prop where
  sizebases : after.sizebases = heap.sizebases
  allbase : after.allbase = heap.allbase
  kheaproots : after.kheaproots = heap.kheaproots
  kernel : after.kernel = heap.kernel
  memory : ∀ a, ¬ (addr ≤ a ∧ a < addr + pageSize) → after.memory a = heap.memory a

/-- The loop over the blocks of a new page links each to the one before. -/
theorem link_blocks_ensures (known : kind < nsizes) (area : Area holds addr)
    (elsewhere : Elsewhere pr addr) (rounds i : Nat) (heap : Kheap Kernel)
    (counted : heap.nfree pr = pageSize / sizes kind) (started : 0 < i)
    (bound : i ≤ pageSize / sizes kind) (enough : pageSize / sizes kind < rounds + i)
    (linked : Linked 0 (chain heap.memory (addr + (i - 1) * sizes kind)) none
      ((List.range i).map (fun j => addr + j * sizes kind)).reverse) :
    Succeeds (linkBlocks pr addr (sizes kind) rounds i (addr + (i - 1) * sizes kind)) heap
      (fun last after => WithinPage heap addr after ∧
        last = addr + (pageSize / sizes kind - 1) * sizes kind ∧
        Linked 0 (chain after.memory last) none (blocks addr kind).reverse) := by
  have bounded := area.bounded
  have positive := (few_blocks known).2.2.2
  induction rounds generalizing i heap with
  | zero => omega
  | succ rounds ih =>
    refine bind_done rfl ?_
    by_cases more : i < pageSize / sizes kind
    · have here := block_bounds known more
      have step : i * sizes kind = (i - 1) * sizes kind + sizes kind := by
        rw [← Nat.succ_mul, Nat.succ_eq_add_one, Nat.sub_add_cancel started]
      have place : (addr + i * sizes kind) % addressRange = addr + i * sizes kind :=
        Nat.mod_eq_of_lt (by omega)
      have place_before : (addr + (i - 1) * sizes kind) % addressRange = addr + (i - 1) * sizes kind :=
        Nat.mod_eq_of_lt (by omega)
      rw [if_pos (show i < (id heap).nfree pr from counted ▸ more)]
      simp only [place, place_before]
      refine bind_done rfl (bind_done rfl (bind_done (check_passes ?_) ?_))
      · show _ ≠ update heap.memory _ _ _
        rw [place, update_self]
        omega
      · refine (ih (i + 1) (heap.store (addr + i * sizes kind)
          (addr + (i - 1) * sizes kind)) ?_ (by omega) more (by omega) ?_).on_return ?_
        · refine (update_of_ne ?_ _ _).trans counted
          exact elsewhere 14 (by decide) _ (by omega) (by omega)
        · rw [List.range_succ, List.map_append, List.reverse_append]
          refine linked.push (show addr + i * sizes kind ≠ 0 by omega) rfl ?_ ?_
          · exact update_self _ _ _
          · intro y member
            refine update_of_ne ?_ _ _
            obtain ⟨j, j_below, rfl⟩ := List.mem_map.mp (List.mem_reverse.mp member)
            have earlier := Nat.mul_lt_mul_of_pos_right (List.mem_range.mp j_below)
              (show 0 < sizes kind by omega)
            omega
        · rintro last after ⟨within, last_is, chained⟩
          refine ⟨{ within with memory := ?_ }, last_is,
            chained⟩
          intro a outside
          refine (within.memory a outside).trans (update_of_ne ?_ _ _)
          rintro rfl
          exact outside ⟨by omega, by omega⟩
    · have whole : i = pageSize / sizes kind := by omega
      rw [if_neg (show ¬ i < (id heap).nfree pr from counted ▸ more)]
      subst whole
      exact ensures_pure ⟨⟨rfl, rfl, rfl, rfl, fun _ _ => rfl⟩, rfl, linked⟩

/-- A new page is set up. -/
structure SetUp (heap : Kheap Kernel) (pr addr kind : Nat) (after : Kheap Kernel) : Prop where
  sizebases : after.sizebases = update heap.sizebases kind pr
  allbase : after.allbase = pr
  kheaproots : after.kheaproots = heap.kheaproots
  kernel : after.kernel = heap.kernel
  nextSamesize : after.nextSamesize pr = heap.sizebases kind
  nextAll : after.nextAll pr = heap.allbase
  memory : ∀ a, (∀ offset < pagerefSize, a ≠ pr + offset) → ¬ (addr ≤ a ∧ a < addr + pageSize) →
    after.memory a = heap.memory a
  page : PageSound after pr addr kind (blocks addr kind).reverse

/-- The page reference in front of both lists. -/
def Kheap.pushed (heap : Kheap Kernel) (pr kind : Nat) : Kheap Kernel :=
  let sameNext := heap.setLink (heap.sizebases kind) (.samesize kind) (some pr)
  let same := sameNext.setLink pr (.samesize kind) none
  let allNext := same.setLink same.allbase .all (some pr)
  allNext.setLink pr .all none

/-- Putting a reference at the head of its lists writes its two links only. -/
theorem pushed_memory {a : Nat} (not_same : a ≠ pr) (not_all : a ≠ pr + 4) :
    (heap.pushed pr kind).memory a = heap.memory a :=
  (update_of_ne not_all _ _).trans (update_of_ne not_same _ _)

/-- A page whose blocks are all linked is set up once its page reference is pushed. -/
theorem set_up_of_linked {linked : Kheap Kernel} (known : kind < nsizes) (area : Area holds addr)
    (elsewhere : Elsewhere pr addr) (sizebases : linked.sizebases = heap.sizebases)
    (allbase : linked.allbase = heap.allbase) (kheaproots : linked.kheaproots = heap.kheaproots)
    (kernel : linked.kernel = heap.kernel)
    (memory : ∀ a, (∀ offset < pagerefSize, a ≠ pr + offset) → ¬ (addr ≤ a ∧ a < addr + pageSize) →
      linked.memory a = heap.memory a) (named : linked.pageaddrAndBlocktype pr = addr + kind)
    (count : linked.nfree pr = pageSize / sizes kind)
    (offset : linked.freelistOffset pr = (pageSize / sizes kind - 1) * sizes kind)
    (chained : Linked 0 (chain linked.memory (addr + (pageSize / sizes kind - 1) * sizes kind)) none
      (blocks addr kind).reverse) : SetUp heap pr addr kind (linked.pushed pr kind) := by
  have field : ∀ offset, 8 ≤ offset → (linked.pushed pr kind).memory (pr + offset) =
      linked.memory (pr + offset) := fun offset high => pushed_memory (by omega) (by omega)
  have on_page : ∀ a, addr ≤ a → a < addr + pageSize →
      (linked.pushed pr kind).memory a = linked.memory a := fun a low high =>
    pushed_memory (elsewhere.not_field low high 0 (by decide)) (elsewhere.not_field low high 4 (by decide))
  have last := block_bounds known
    (show pageSize / sizes kind - 1 < pageSize / sizes kind by have := (few_blocks known).1; omega)
  have positive := (few_blocks known).2.2.2
  refine ⟨?_, rfl, kheaproots, kernel, ?_, ?_, ?_, ⟨known, ?_, ?_, ?_, ?_, ?_⟩⟩
  · exact congrArg (fun bases => update bases kind pr) sizebases
  · refine (update_of_ne (show pr ≠ pr + 4 by omega) _ _).trans ?_
    exact (update_self _ _ _).trans (congrFun sizebases kind)
  · exact (update_self _ _ _).trans allbase
  · intro a not_field outside
    refine (pushed_memory ?_ (not_field 4 (by decide))).trans (memory a not_field outside)
    exact not_field 0 (by decide)
  · exact (field 8 (by decide)).trans named
  · rw [List.length_reverse, blocks_length]
    exact (field 14 (by decide)).trans count
  · refine chained.redirect ?_ ?_
    · show _ = addr + (pageSize / sizes kind - 1) * sizes kind
      refine free_link_of_offset known area ((field 8 (by decide)).trans named) (by omega) (by omega) ?_
      refine (field 12 (by decide)).trans (offset.trans ?_)
      omega
    · intro x member
      obtain ⟨low, high, _⟩ := (mem_blocks addr x known).mp (List.mem_reverse.mp member)
      exact on_page x low high
  · exact List.nodup_reverse.mpr (blocks_nodup known)
  · intro x member
    exact List.mem_reverse.mp member

/-- The assertion on the offset of the last block, whose right side is computed with a
count that could be zero. -/
theorem last_offset {kind : Nat} (known : kind < nsizes) :
    (pageSize / sizes kind + addressRange - 1) * sizes kind % addressRange =
      (pageSize / sizes kind - 1) * sizes kind := by
  rcases sizes_cases known with size | size | size | size | size | size | size | size <;>
    rw [size] <;> decide

/-- The heap before the blocks of a new page are linked. -/
def Kheap.prepared (heap : Kheap Kernel) (pr addr kind : Nat) : Kheap Kernel :=
  ((heap.store (pr + 8) (mkpab addr kind)).setNfree pr (pageSize / sizes kind)).store addr 0

/-- Setting up a page writes the name, the count and the first block only. -/
theorem prepared_memory {a : Nat} (not_name : a ≠ pr + 8) (not_count : a ≠ pr + 14) (not_page : a ≠ addr) :
    (heap.prepared pr addr kind).memory a = heap.memory a :=
  ((update_of_ne not_page _ _).trans (set_nfree_of_ne not_count)).trans (update_of_ne not_name _ _)

/-- The count of a new page is the number of its blocks. -/
theorem prepared_count (known : kind < nsizes) (not_page : pr + 14 ≠ addr) :
    (heap.prepared pr addr kind).nfree pr = pageSize / sizes kind := by
  have few := (few_blocks known).2.1
  refine (update_of_ne not_page _ _).trans ((set_nfree_self).trans ?_)
  refine Nat.mod_eq_of_lt ?_
  unfold halfwordRange
  omega

/-- The packed word of a new page has its address and its block type. -/
theorem prepared_name (known : kind < nsizes) (area : Area holds addr) (not_page : pr + 8 ≠ addr) :
    (heap.prepared pr addr kind).pageaddrAndBlocktype pr = addr + kind := by
  have aligned := area.aligned
  refine (update_of_ne not_page _ _).trans ((set_nfree_of_ne (by omega)).trans ?_)
  refine (update_self _ _ _).trans ?_
  unfold mkpab pageSize
  unfold pageSize at aligned
  unfold nsizes at known
  omega

theorem prepared_linked (area : Area holds addr) :
    Linked 0 (chain (heap.prepared pr addr kind).memory (addr + (1 - 1) * sizes kind)) none
      ((List.range 1).map (fun j => addr + j * sizes kind)).reverse := by
  have place : addr + 0 * sizes kind = addr := by omega
  refine ⟨rfl, ?_, ?_⟩
  · show addr + 0 * sizes kind ≠ 0
    rw [place]
    exact area.real
  · show (heap.prepared pr addr kind).memory (addr + 0 * sizes kind) = 0
    rw [place]
    exact update_self _ _ _

/-- Setting up a new page makes all of its blocks free and puts it in front of both
lists. -/
theorem set_up_page_ensures (known : kind < nsizes) (area : Area holds addr)
    (elsewhere : Elsewhere pr addr) (heap : Kheap Kernel) :
    Succeeds (setUpPage addr pr kind) heap (fun _ => SetUp heap pr addr kind) := by
  obtain ⟨two, few, _, positive⟩ := few_blocks known
  have bounded := area.bounded
  have not_page := fun (offset : Nat) inside =>
    elsewhere offset inside addr (Nat.le_refl addr) (by unfold pageSize; omega)
  have count : (heap.prepared pr addr kind).nfree pr = pageSize / sizes kind :=
    prepared_count known (not_page 14 (by decide))
  have last_bounds := block_bounds known (show pageSize / sizes kind - 1 < pageSize / sizes kind by omega)
  have linking := link_blocks_ensures known area elsewhere halfwordRange 1 (heap.prepared pr addr kind)
    count Nat.one_pos (by omega) (by unfold halfwordRange; omega) (prepared_linked area)
  rw [show addr + (1 - 1) * sizes kind = addr by omega] at linking
  unfold setUpPage
  refine bind_done rfl (bind_done rfl (bind_done rfl ?_))
  refine Ensures.bind linking ?_
  rintro last linked ⟨within, rfl, chained⟩
  have field : ∀ offset < pagerefSize, linked.memory (pr + offset) =
      (heap.prepared pr addr kind).memory (pr + offset) := by
    intro offset inside
    refine within.memory _ ?_
    rintro ⟨low, high⟩
    exact elsewhere offset inside _ low high rfl
  have offset : (addr + (pageSize / sizes kind - 1) * sizes kind + addressRange - addr) %
      addressRange % halfwordRange = (pageSize / sizes kind - 1) * sizes kind := by
    unfold pageSize at last_bounds bounded ⊢
    unfold addressRange at bounded ⊢
    unfold halfwordRange
    omega
  have final : ∀ offset a, a ≠ pr + 12 →
      (linked.setFreelistOffset pr offset).memory a = linked.memory a :=
    fun offset _ other => set_freelist_offset_of_ne other
  refine bind_done rfl (bind_done rfl (bind_done (check_passes ?_) ?_))
  · show (linked.setFreelistOffset pr _).freelistOffset pr =
      ((linked.setFreelistOffset pr _).memory (pr + 14) + addressRange - 1) * sizes kind % addressRange
    rw [set_freelist_offset_self, offset, final _ _ (by omega), field 14 (by decide),
      show (heap.prepared pr addr kind).memory (pr + 14) = _ from count, last_offset known]
  · refine bind_done rfl (bind_done rfl (bind_done rfl (ensures_change ?_)))
    refine set_up_of_linked known area elsewhere
      within.sizebases within.allbase within.kheaproots within.kernel ?_ ?_ ?_ ?_ ?_
    · intro a not_field outside
      refine (final _ _ (not_field 12 (by decide))).trans ((within.memory a outside).trans ?_)
      refine prepared_memory (not_field 8 (by decide)) (not_field 14 (by decide)) ?_
      rintro rfl
      exact outside ⟨Nat.le_refl _, by unfold pageSize; omega⟩
    · refine (final _ _ (by omega)).trans ((field 8 (by decide)).trans ?_)
      exact prepared_name known area (not_page 8 (by decide))
    · exact (final _ _ (by omega)).trans ((field 14 (by decide)).trans count)
    · rw [set_freelist_offset_self, offset]
    · refine chained.redirect rfl (fun x member => final _ _ ?_)
      obtain ⟨low, high, _⟩ := (mem_blocks addr x known).mp (List.mem_reverse.mp member)
      exact elsewhere.not_field low high 12 (by decide)

end

end

end Os161.Kmalloc
