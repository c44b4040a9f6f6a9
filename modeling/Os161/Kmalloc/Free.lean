import Os161.Kmalloc.Subpage

/-!
# Freeing a block

`kfree` of a live block finds its page, fills the block and puts it in front of the free
list of the page. If all blocks of the page are free then, its page reference is taken
off both lists and let go of, and the page is given back.
-/
namespace Os161.Kmalloc

open Os161.Library Os161.Library.Chain Os161.Library.Program Function
open Ensures (bind_done)

variable {Kernel : Type} {out : Kernel → Nat → Prop}

section

variable {heap : Kheap Kernel} {book : Book}

/-- The search along the list of all pages returns the page an address is on. -/
theorem find_page_ensures (kept : Kept out heap book) {owner x : Nat} (owner_member : owner ∈ book.refs)
    (low : book.addr owner ≤ x) (high : x < book.addr owner + pageSize) (rounds : Nat)
    (guy : Option Nat) (members : List Nat) (linked : Linked 0 (heap.link .all) guy members)
    (listed : ∀ pr ∈ members, pr ∈ book.refs) (target : owner ∈ members)
    (enough : members.length < rounds) :
    Succeeds (findPage x rounds (heap.link .all guy)) heap
      (fun found after => after = heap ∧ found = some owner) := by
  induction rounds generalizing guy members with
  | zero => omega
  | succ rounds ih =>
    unfold findPage
    cases members with
    | nil => cases target
    | cons pr rest =>
      obtain ⟨first, real, tail⟩ := linked
      have member := listed pr List.mem_cons_self
      have sound := kept.page pr member
      have area := kept.area pr member
      have no_wrap : (book.addr pr + pageSize) % addressRange = book.addr pr + pageSize :=
        Nat.mod_eq_of_lt area.bounded
      rw [first, if_neg real]
      refine bind_done rfl (bind_done (check_passes ?_) ?_)
      · exact (sound.blocktype area).symm ▸ sound.known
      · simp only [id, sound.pageaddr area, no_wrap]
        obtain rfl | here := eq_or_ne pr owner
        · rw [if_pos ⟨low, high⟩]
          exact ensures_pure ⟨rfl, rfl⟩
        have apart := kept.toPlaced.pages_apart member owner_member here
        rw [if_neg (by omega)]
        refine ih (some pr) rest tail
          (fun other later => listed other (List.mem_cons_of_mem pr later))
          ((List.mem_cons.mp target).resolve_left (Ne.symm here)) ?_
        rw [List.length_cons] at enough
        omega

variable {pr addr kind x : Nat} {free : List Nat}

/-- The heap after `fill_deadbeef`. -/
def Kheap.filled (heap : Kheap Kernel) (ptr len : Nat) : Kheap Kernel :=
  { heap with
    memory := fun address =>
      if ptr ≤ address ∧ address < ptr + len / 4 * 4 ∧ (address - ptr) % 4 = 0 then 0xdeadbeef
      else heap.memory address }

theorem filled_memory {a len : Nat} (outside : ¬ (x ≤ a ∧ a < x + len)) :
    (heap.filled x len).memory a = heap.memory a := by
  refine if_neg ?_
  rintro ⟨low, high, _⟩
  exact outside ⟨low, by omega⟩

/-- A block that is filled and then linked holds what the base of the free list did. -/
theorem link_free_ensures {holds : Nat → Prop} (area : Area holds addr)
    (sound : PageSound heap pr addr kind free) (elsewhere : Elsewhere pr addr)
    (block : x ∈ blocks addr kind) (taken : x ∉ free) :
    Succeeds (linkFree pr addr x) (heap.filled x (sizes kind))
      (fun _ after => after = (heap.filled x (sizes kind)).store x (heap.freeLink pr none)) := by
  obtain ⟨low, inside⟩ := block_within sound.known block
  have offset : (heap.filled x (sizes kind)).freelistOffset pr = heap.freelistOffset pr := by
    refine filled_memory ?_
    rintro ⟨x_low, x_high⟩
    exact elsewhere 12 (by decide) _ (by omega) (by omega) rfl
  have bounded := area.bounded
  unfold linkFree
  refine bind_done rfl ?_
  simp only [id]
  cases free with
  | nil =>
    have invalid := sound.offset_of_nil area
    have base : heap.freeLink pr none = 0 := sound.linked
    rw [if_pos (offset.trans invalid), base]
    exact ensures_change rfl
  | cons y rest =>
    obtain ⟨valid, y_low, y_high⟩ := sound.offset_of_cons area
    have base : heap.freeLink pr none = y := sound.linked.1
    have not_invalid : ¬ (heap.filled x (sizes kind)).freelistOffset pr = invalidOffset := by
      rw [offset, valid]
      unfold invalidOffset
      unfold pageSize at y_high
      omega
    have value : (addr + (heap.filled x (sizes kind)).freelistOffset pr) % addressRange = y := by
      rw [offset, valid, Nat.add_sub_cancel' y_low]
      exact Nat.mod_eq_of_lt (by omega)
    rw [if_neg not_invalid, base]
    refine bind_done rfl (bind_done rfl (ensures_check ?_ (Or.inl ?_)))
    · show (heap.filled x (sizes kind)).store x _ = _
      rw [value]
    · intro same
      have first : x = y := same.trans ((update_self _ _ _).trans value)
      exact taken (first ▸ List.mem_cons_self)

/-- The heap after a block has been put on the free list of its page. -/
def Kheap.putBack (heap : Kheap Kernel) (pr addr kind x : Nat) : Kheap Kernel :=
  let linked := (heap.filled x (sizes kind)).store x (heap.freeLink pr none)
  let based := linked.setFreelistOffset pr (x - addr)
  based.setNfree pr (based.nfree pr + 1)

theorem put_back_memory {a : Nat} (not_offset : a ≠ pr + 12) (not_count : a ≠ pr + 14)
    (outside : ¬ (x ≤ a ∧ a < x + sizes kind)) (positive : 0 < sizes kind) :
    (heap.putBack pr addr kind x).memory a = heap.memory a := by
  refine (set_nfree_of_ne not_count).trans ((set_freelist_offset_of_ne not_offset).trans ?_)
  refine (update_of_ne ?_ _ _).trans (filled_memory outside)
  rintro rfl
  exact outside ⟨Nat.le_refl _, by omega⟩

/-- A block is put in front of the free list of its page. -/
theorem PageSound.put_back {holds : Nat → Prop} (area : Area holds addr)
    (sound : PageSound heap pr addr kind free) (elsewhere : Elsewhere pr addr)
    (block : x ∈ blocks addr kind) (taken : x ∉ free) :
    OnPage heap pr addr (heap.putBack pr addr kind x) ∧
      PageSound (heap.putBack pr addr kind x) pr addr kind (x :: free) := by
  obtain ⟨low, inside⟩ := block_within sound.known block
  obtain ⟨_, few, _, positive⟩ := few_blocks sound.known
  have field : ∀ offset < pagerefSize, ¬ (x ≤ pr + offset ∧ pr + offset < x + sizes kind) := by
    rintro offset below ⟨x_low, x_high⟩
    exact elsewhere offset below _ (by omega) (by omega) rfl
  have named : (heap.putBack pr addr kind x).pageaddrAndBlocktype pr = addr + kind :=
    (put_back_memory (by omega) (by omega) (field 8 (by decide)) (by omega)).trans sound.named
  have old_count : (((heap.filled x (sizes kind)).store x (heap.freeLink pr none)).setFreelistOffset pr
      (x - addr)).nfree pr = free.length := by
    refine (set_freelist_offset_of_ne (by omega)).trans ((update_of_ne ?_ _ _).trans ?_)
    · exact (elsewhere.not_field low (by omega) 14 (by decide)).symm
    · exact (filled_memory (field 14 (by decide))).trans sound.count
  refine ⟨⟨rfl, rfl, rfl, rfl, ?_⟩, ⟨sound.known, named, ?_, ?_, List.nodup_cons.mpr ⟨taken, sound.nodup⟩,
    List.cons_subset.mpr ⟨block, sound.within⟩⟩⟩
  · intro a not_offset not_count outside
    refine put_back_memory not_offset not_count ?_ (by omega)
    rintro ⟨x_low, x_high⟩
    exact outside ⟨by omega, by omega⟩
  · have few_free := sound.length_le
    refine (set_nfree_self).trans ?_
    rw [old_count, List.length_cons]
    refine Nat.mod_eq_of_lt ?_
    unfold halfwordRange
    omega
  · refine sound.linked.push (show x ≠ 0 by have := area.real; omega) ?_ ?_ ?_
    · refine free_link_of_offset sound.known area named low (by omega) ?_
      refine (set_nfree_of_ne (by omega)).trans ((set_freelist_offset_self _).trans ?_)
      refine Nat.mod_eq_of_lt ?_
      unfold pageSize at inside
      unfold halfwordRange
      omega
    · refine (set_nfree_of_ne (elsewhere.not_field low (by omega) 14 (by decide))).trans ?_
      refine (set_freelist_offset_of_ne (elsewhere.not_field low (by omega) 12 (by decide))).trans ?_
      exact update_self _ _ _
    · intro y member
      have y_block := sound.within member
      obtain ⟨y_low, y_inside⟩ := block_within sound.known y_block
      refine put_back_memory (elsewhere.not_field y_low (by omega) 12 (by decide))
        (elsewhere.not_field y_low (by omega) 14 (by decide)) ?_ (by omega)
      have apart := blocks_disjoint sound.known block y_block (fun same => taken (same ▸ member))
      omega

theorem link_set_link_self {value : Nat} {listing : Listing} {guy : Option Nat} :
    (heap.setLink value listing guy).link listing guy = value := by
  cases listing <;> cases guy <;> first | rfl | exact update_self _ _ _

theorem link_set_link_of_ne {value : Nat} {listing : Listing} {guy other : Option Nat}
    (different : other ≠ guy) :
    (heap.setLink value listing guy).link listing other = heap.link listing other := by
  cases guy with
  | none =>
    cases other with
    | none => exact absurd rfl different
    | some y => cases listing <;> rfl
  | some z =>
    cases other with
    | none => cases listing <;> rfl
    | some y =>
      have apart : y ≠ z := fun same => different (congrArg some same)
      cases listing with
      | samesize blktype => exact update_of_ne apart _ _
      | all => exact update_of_ne (show y + 4 ≠ z + 4 by omega) _ _

/-- Where a page reference has its link of a list. -/
def Listing.offset : Listing → Nat
  | .samesize _ => 0
  | .all => 4

/-- A page reference is taken off a list. -/
structure Unlinked (heap : Kheap Kernel) (listing : Listing) (guy : Option Nat) (members : List Nat)
    (pr : Nat) (after : Kheap Kernel) : Prop where
  linked : Linked 0 (after.link listing) guy (members.filter (fun other => other ≠ pr))
  others : ∀ other, other ≠ guy → (∀ y ∈ members, other ≠ some y) →
    after.link listing other = heap.link listing other
  bases : ∀ other, other ≠ listing → after.link other none = heap.link other none
  kheaproots : after.kheaproots = heap.kheaproots
  kernel : after.kernel = heap.kernel
  memory : ∀ a, (∀ y, guy = some y → a ≠ y + listing.offset) →
    (∀ y ∈ members, a ≠ y + listing.offset) → after.memory a = heap.memory a

/-- The first page reference of a list is taken off. -/
theorem unlinked_first {guy : Option Nat} {listing : Listing} {rest : List Nat}
    (linked : Linked 0 (heap.link listing) guy (pr :: rest)) (nodup : (pr :: rest).Nodup)
    (not_member : ∀ y ∈ pr :: rest, guy ≠ some y) :
    Unlinked heap listing guy (pr :: rest) pr
      (heap.setLink (heap.link listing (some pr)) listing guy) := by
  have absent := (List.nodup_cons.mp nodup).1
  have left : (pr :: rest).filter (fun other => other ≠ pr) = rest := by
    rw [List.filter_cons_of_neg (by simp), List.filter_eq_self]
    intro y later
    exact decide_eq_true (ne_of_mem_of_not_mem later absent)
  refine ⟨?_, ?_, ?_, ?_, ?_, ?_⟩
  · rw [left]
    refine linked.unlink (link_set_link_self) (fun y later => link_set_link_of_ne ?_)
    exact (not_member y (List.mem_cons_of_mem pr later)).symm
  · exact fun other different _ => link_set_link_of_ne different
  · intro other different
    cases listing with
    | samesize blktype =>
      cases guy with
      | some y => cases other <;> rfl
      | none =>
        cases other with
        | all => rfl
        | samesize other_type =>
          exact update_of_ne (fun same => different (congrArg _ same)) _ _
    | all =>
      cases guy with
      | some y => cases other <;> rfl
      | none =>
        cases other with
        | all => exact absurd rfl different
        | samesize other_type => rfl
  · cases listing <;> cases guy <;> rfl
  · cases listing <;> cases guy <;> rfl
  · intro a not_guy _
    cases guy with
    | none => cases listing <;> rfl
    | some y =>
      have apart := not_guy y rfl
      cases listing <;> exact update_of_ne apart _ _

/-- One loop of `remove_lists` takes the page reference off the list. -/
theorem remove_list_ensures {listing : Listing} (rounds : Nat) (guy : Option Nat) (members : List Nat)
    (linked : Linked 0 (heap.link listing) guy members) (nodup : members.Nodup)
    (not_member : ∀ y ∈ members, guy ≠ some y) (target : pr ∈ members)
    (enough : members.length < rounds) :
    Succeeds (removeList listing pr rounds guy) heap
      (fun _ => Unlinked heap listing guy members pr) := by
  induction rounds generalizing guy members with
  | zero => omega
  | succ rounds ih =>
    unfold removeList
    refine bind_done rfl ?_
    simp only [id]
    cases members with
    | nil => cases target
    | cons y rest =>
      obtain ⟨first, real, tail⟩ := linked
      have linked : Linked 0 (heap.link listing) guy (y :: rest) := ⟨first, real, tail⟩
      rw [first, if_neg real]
      obtain rfl | here := eq_or_ne y pr
      · rw [if_pos rfl]
        exact ensures_change (unlinked_first linked nodup not_member)
      rw [if_neg here]
      obtain ⟨absent, rest_nodup⟩ := List.nodup_cons.mp nodup
      rw [List.length_cons] at enough
      refine (ih (some y) rest tail rest_nodup ?_
        ((List.mem_cons.mp target).resolve_left (Ne.symm here)) (by omega)).on_return ?_
      · intro z later same
        exact absent (Option.some.inj same ▸ later)
      · intro _ after unlinked
        have kept_first : after.link listing guy = y :=
          (unlinked.others guy (not_member y List.mem_cons_self)
            (fun z later => not_member z (List.mem_cons_of_mem y later))).trans first
        refine { unlinked with linked := ?_, others := ?_, memory := ?_ }
        · have stays : (y :: rest).filter (fun other => other ≠ pr) =
              y :: rest.filter (fun other => other ≠ pr) :=
            List.filter_cons_of_pos (decide_eq_true here)
          rw [stays]
          exact ⟨kept_first, real, unlinked.linked⟩
        · intro other _ elsewhere
          exact unlinked.others other (elsewhere y List.mem_cons_self)
            (fun z later => elsewhere z (List.mem_cons_of_mem y later))
        · intro a _ apart
          refine unlinked.memory a (fun z same => ?_)
            (fun z later => apart z (List.mem_cons_of_mem y later))
          obtain rfl := Option.some.inj same
          exact apart y List.mem_cons_self

/-- The book without a page. -/
def Book.remove (book : Book) (pr : Nat) : Book :=
  { book with refs := book.refs.filter (fun other => other ≠ pr) }

theorem Book.mem_remove (book : Book) (pr other : Nat) :
    other ∈ (book.remove pr).refs ↔ other ∈ book.refs ∧ other ≠ pr := by
  unfold Book.remove
  rw [List.mem_filter, decide_eq_true_eq]

theorem Book.on_list_remove (book : Book) (pr : Nat) (listing : Listing) :
    (book.remove pr).onList listing = (book.onList listing).filter (fun other => other ≠ pr) := by
  cases listing with
  | all => rfl
  | samesize blktype =>
    simp only [Book.onList, Book.remove, List.filter_filter]
    exact List.filter_congr (fun other _ => Bool.and_comm _ _)

/-- Both lists are without the page reference, and nothing but links has changed. -/
structure Removed (heap : Kheap Kernel) (book : Book) (pr : Nat) (after : Kheap Kernel) : Prop where
  lists : ∀ listing : Listing, listing.Real →
    Linked 0 (after.link listing) none ((book.remove pr).onList listing)
  kheaproots : after.kheaproots = heap.kheaproots
  kernel : after.kernel = heap.kernel
  memory : ∀ a, (∀ y ∈ book.refs, ∀ offset < 8, a ≠ y + offset) → after.memory a = heap.memory a

/-- A list is not changed when a page reference is taken off another one. -/
theorem Unlinked.other_list {before after : Kheap Kernel} {listing other : Listing}
    {members others : List Nat}
    (unlinked : Unlinked before listing none members pr after) (different : other ≠ listing)
    (apart : ∀ y ∈ others, ∀ z ∈ members, y + other.offset ≠ z + listing.offset)
    (linked : Linked 0 (before.link other) none others) : Linked 0 (after.link other) none others := by
  refine linked.redirect (unlinked.bases other different) (fun y member => ?_)
  have cell : after.memory (y + other.offset) = before.memory (y + other.offset) :=
    unlinked.memory _ nofun (apart y member)
  cases other with
  | samesize blktype | all => exact cell

section

variable (kept : Kept out heap book) (member : pr ∈ book.refs)

include kept member

/-- `remove_lists` takes the page reference off both lists. -/
theorem remove_lists_ensures :
    Succeeds (removeLists pr (book.kind pr)) heap (fun _ => Removed heap book pr) := by
  have placed := kept.toPlaced
  have known := (kept.page pr member).known
  have cells : ∀ y ∈ book.refs, ∀ z ∈ book.refs, ∀ i < 8, ∀ j < 8, i ≠ j → y + i ≠ z + j := by
    intro y y_member z z_member i i_below j j_below different
    by_cases same : y = z
    · omega
    · refine placed.fields_apart y_member z_member same ?_ ?_ <;> unfold pagerefSize <;> omega
  have on_own : pr ∈ book.onList (.samesize (book.kind pr)) :=
    List.mem_filter.mpr ⟨member, decide_eq_true rfl⟩
  have enough := fun listing => Nat.lt_succ_of_le (placed.on_list_length listing)
  refine bind_done (check_passes known) ?_
  refine Ensures.bind (remove_list_ensures _ none _ (kept.lists (.samesize _) known)
    (placed.nodup.filter _) nofun on_own (enough _)) ?_
  intro _ middle first
  have all_linked : Linked 0 (middle.link .all) none book.refs := by
    refine first.other_list (by simp) ?_ (kept.lists .all True.intro)
    intro y y_member z z_listed
    exact cells y y_member z (book.on_list_subset _ z_listed) 4 (by decide) 0 (by decide) (by decide)
  refine (remove_list_ensures _ none _ all_linked placed.nodup nofun member
    (enough .all)).on_return ?_
  intro _ after second
  refine ⟨?_, second.kheaproots.trans first.kheaproots, second.kernel.trans first.kernel, ?_⟩
  · intro listing real
    rw [book.on_list_remove]
    cases listing with
    | all => exact second.linked
    | samesize blktype =>
      refine second.other_list (by simp) ?_ ?_
      · intro y y_listed z z_member
        have y_member := book.on_list_subset (.samesize blktype) (List.mem_of_mem_filter y_listed)
        exact cells y y_member z z_member 0 (by decide) 4 (by decide) (by decide)
      · by_cases same : blktype = book.kind pr
        · subst same
          exact first.linked
        have kinds : ∀ y ∈ book.onList (.samesize blktype), book.kind y = blktype :=
          fun y listed => of_decide_eq_true (List.mem_filter.mp listed).2
        have left : (book.onList (.samesize blktype)).filter (fun other => other ≠ pr) =
            book.onList (.samesize blktype) := by
          refine List.filter_eq_self.mpr (fun y listed => decide_eq_true ?_)
          rintro rfl
          exact same (kinds y listed).symm
        rw [left]
        refine first.other_list (fun equal => same (Listing.samesize.inj equal)) ?_
          (kept.lists (.samesize blktype) real)
        rintro y y_listed z z_listed equal
        obtain rfl : y = z := equal
        have other_kind : book.kind y = book.kind pr := of_decide_eq_true (List.mem_filter.mp z_listed).2
        exact same ((kinds y y_listed).symm.trans other_kind)
  · intro a apart
    refine (second.memory a nofun
      (fun y y_member => apart y y_member 4 (by decide))).trans ?_
    exact first.memory a nofun
      (fun y listed => apart y (book.on_list_subset _ listed) 0 (by decide))

/-- The heap spells out the book without a page once that is off the lists, its page
reference is released and the page is given back. -/
theorem Kept.remove {middle ready : Kheap Kernel} {kernel : Kernel} (removed : Removed heap book pr middle)
    (released : Released out middle pr ready)
    (held : ∀ p, out kernel p ↔ out heap.kernel p ∧ p ≠ book.addr pr) :
    Kept out { ready with kernel := kernel } (book.remove pr) := by
  have placed := kept.toPlaced
  have pages : ∀ whichroot, (ready.kheaproots whichroot).page = (heap.kheaproots whichroot).page :=
    fun whichroot => (released.pages whichroot).trans (by rw [removed.kheaproots])
  have kernels : ready.kernel = heap.kernel := released.kernel.trans removed.kernel
  have in_use : ∀ other, ready.InUse other ↔ other ∈ (book.remove pr).refs := by
    intro other
    have same : middle.InUse other ↔ heap.InUse other := by
      unfold Kheap.InUse
      rw [removed.kheaproots]
    rw [released.inuse, same, placed.inuse, book.mem_remove]
  have was : ∀ other ∈ (book.remove pr).refs, other ∈ book.refs ∧ other ≠ pr :=
    fun other stays => (book.mem_remove pr other).mp stays
  have fields : ∀ other ∈ book.refs, ∀ offset < pagerefSize, 8 ≤ offset →
      ready.memory (other + offset) = heap.memory (other + offset) := by
    intro other other_member offset inside high
    rw [released.memory]
    refine removed.memory _ (fun y y_member low low_below => ?_)
    by_cases same : other = y
    · omega
    · exact placed.fields_apart other_member y_member same inside (Nat.lt_trans low_below (by decide))
  refine ⟨⟨⟨?_, ?_⟩, in_use, placed.nodup.filter _, ?_, ?_, ?_⟩, ?_, ?_⟩
  · intro whichroot below
    have root := released.sound.root whichroot below
    refine { root with out := fun real => (held _).mpr ⟨kernels ▸ root.out real, ?_⟩ }
    rw [pages]
    exact (placed.apart whichroot below pr member).symm
  · exact released.sound.apart
  · intro other stays
    obtain ⟨old, different⟩ := was other stays
    have area := placed.area other old
    refine { area with out := (held _).mpr ⟨area.out, fun same => different ?_⟩ }
    exact placed.addrs other old pr member same
  · intro first first_stays second second_stays
    exact placed.addrs first (was first first_stays).1 second (was second second_stays).1
  · intro whichroot below other stays
    show book.addr other ≠ (ready.kheaproots whichroot).page
    rw [pages]
    exact placed.apart whichroot below other (was other stays).1
  · intro listing real
    refine (removed.lists listing real).redirect ?_ (fun other _ => ?_)
    · exact link_eq released.sizebases released.allbase nofun
    · refine link_eq released.sizebases released.allbase (fun y _ offset _ => ?_)
      exact congrFun released.memory (y + offset)
  · intro other stays
    obtain ⟨old, _⟩ := was other stays
    refine (kept.page other old).frame (fields other old) (fun y free => ?_)
    obtain ⟨low, high⟩ := kept.free_on_page old free
    refine (congrFun released.memory y).trans (removed.memory y (fun z z_member offset below same => ?_))
    exact placed.field_apart z_member old (Nat.lt_trans below (by decide)) low high same.symm

/-- A block that is put on a free list is live no longer. -/
theorem Kept.live_push (block : x ∈ blocks (book.addr pr) (book.kind pr)) (y : Nat) :
    ({ book with free := update book.free pr (x :: book.free pr) } : Book).Live y ↔
      book.Live y ∧ y ≠ x := by
  constructor
  · rintro ⟨other, other_member, other_block, taken⟩
    obtain rfl | same := eq_or_ne other pr
    · simp only [update_self] at taken
      refine ⟨⟨other, other_member, other_block, fun free => taken (List.mem_cons_of_mem x free)⟩, ?_⟩
      rintro rfl
      exact taken List.mem_cons_self
    · simp only [update_of_ne same] at taken
      refine ⟨⟨other, other_member, other_block, taken⟩, ?_⟩
      rintro rfl
      exact same (kept.page_of_block other_member member other_block block)
  · rintro ⟨⟨other, other_member, other_block, taken⟩, different⟩
    refine ⟨other, other_member, other_block, ?_⟩
    obtain rfl | same := eq_or_ne other pr
    · simp only [update_self]
      exact fun free => taken ((List.mem_cons.mp free).resolve_left different)
    · simp only [update_of_ne same]
      exact taken

end

theorem Book.live_remove (book : Book)
    (all_free : ∀ y ∈ blocks (book.addr pr) (book.kind pr), y ∈ book.free pr) (y : Nat) :
    (book.remove pr).Live y ↔ book.Live y := by
  constructor
  · rintro ⟨other, stays, block, taken⟩
    exact ⟨other, ((book.mem_remove pr other).mp stays).1, block, taken⟩
  · rintro ⟨other, member, block, taken⟩
    refine ⟨other, (book.mem_remove pr other).mpr ⟨member, ?_⟩, block, taken⟩
    rintro rfl
    exact taken (all_free y block)

/-- Every page has a live block. -/
def Book.Busy (book : Book) : Prop :=
  ∀ pr ∈ book.refs, ∃ y ∈ blocks (book.addr pr) (book.kind pr), book.Live y

/-- What `kfree` does: the block is live no longer, and a page stays in the book as long as
it has a live block and is given back otherwise. -/
structure Freed (out : Kernel → Nat → Prop) (book : Book) (x : Nat) (after : Kheap Kernel)
    (later : Book) : Prop where
  kept : Kept out after later
  live : ∀ y, later.Live y ↔ book.Live y ∧ y ≠ x
  shrunk : ∀ pr ∈ later.refs,
    pr ∈ book.refs ∧ later.addr pr = book.addr pr ∧ later.kind pr = book.kind pr
  stays : ∀ pr ∈ book.refs,
    (pr ∈ later.refs ↔ ∃ y ∈ blocks (book.addr pr) (book.kind pr), later.Live y)
  back : ∀ pr ∈ book.refs, pr ∉ later.refs → ¬ out after.kernel (book.addr pr)

section

variable (kept : Kept out heap book) (busy : book.Busy) (member : pr ∈ book.refs)
  (block : x ∈ blocks (book.addr pr) (book.kind pr))

include kept busy member block

theorem Kept.others_busy {other : Nat} (other_member : other ∈ book.refs) (different : other ≠ pr) :
    ∃ y ∈ blocks (book.addr other) (book.kind other), book.Live y ∧ y ≠ x := by
  obtain ⟨y, y_block, y_live⟩ := busy other other_member
  refine ⟨y, y_block, y_live, ?_⟩
  rintro rfl
  exact different (kept.page_of_block other_member member y_block block)

theorem freed_stays {after : Kheap Kernel}
    (changed : Kept out after { book with free := update book.free pr (x :: book.free pr) })
    (room : (x :: book.free pr).length ≠ pageSize / sizes (book.kind pr)) :
    Freed out book x after { book with free := update book.free pr (x :: book.free pr) } := by
  have live := kept.live_push member block
  refine ⟨changed, live, fun _ stays => ⟨stays, rfl, rfl⟩, fun other other_member => ?_,
    fun other other_member gone => absurd other_member gone⟩
  refine iff_of_true other_member ?_
  obtain rfl | same := eq_or_ne other pr
  · have sound := changed.page other other_member
    simp only [update_self] at sound
    have few := sound.length_le
    rw [← blocks_length (book.addr other) (book.kind other)] at few room
    obtain ⟨y, y_block, taken⟩ : ∃ y ∈ blocks (book.addr other) (book.kind other),
        y ∉ x :: book.free other := by
      by_contra none_left
      push Not at none_left
      have within := ((blocks_nodup sound.known).subperm none_left).length_le
      omega
    refine ⟨y, y_block, other, other_member, y_block, ?_⟩
    simp only [update_self]
    exact taken
  · obtain ⟨y, y_block, y_live⟩ := kept.others_busy busy member block other_member same
    exact ⟨y, y_block, (live y).mpr y_live⟩

/-- The page of the block goes, as all of its blocks are free. -/
theorem freed_back {after : Kheap Kernel}
    (all_free : ∀ y ∈ blocks (book.addr pr) (book.kind pr), y ∈ x :: book.free pr)
    (changed : Kept out after
      (({ book with free := update book.free pr (x :: book.free pr) } : Book).remove pr))
    (back : ¬ out after.kernel (book.addr pr)) :
    Freed out book x after
      (({ book with free := update book.free pr (x :: book.free pr) } : Book).remove pr) := by
  have live : ∀ y, (({ book with free := update book.free pr (x :: book.free pr) } :
      Book).remove pr).Live y ↔ book.Live y ∧ y ≠ x := by
    intro y
    refine (Book.live_remove _ ?_ y).trans (kept.live_push member block y)
    intro z z_block
    simp only [update_self]
    exact all_free z z_block
  have removed := fun other => Book.mem_remove
    { book with free := update book.free pr (x :: book.free pr) } pr other
  refine ⟨changed, live, fun other stays => ⟨((removed other).mp stays).1, rfl, rfl⟩, ?_, ?_⟩
  · intro other other_member
    obtain rfl | same := eq_or_ne other pr
    · refine iff_of_false (fun stays => ((removed other).mp stays).2 rfl) ?_
      rintro ⟨y, y_block, y_live⟩
      obtain ⟨owner, owner_stays, owner_block, _⟩ := y_live
      obtain ⟨owner_member, different⟩ := (removed owner).mp owner_stays
      exact different (kept.page_of_block owner_member member owner_block y_block)
    · refine iff_of_true ((removed other).mpr ⟨other_member, same⟩) ?_
      obtain ⟨y, y_block, y_live⟩ := kept.others_busy busy member block other_member same
      exact ⟨y, y_block, (live y).mpr y_live⟩
  · intro other other_member gone
    obtain rfl : other = pr := by
      by_contra different
      exact gone ((removed other).mpr ⟨other_member, different⟩)
    exact back

end

variable {allocKpages : Nat → Kernel → Option (Nat × Kernel)} {freeKpages : Nat → Kernel → Kernel}

section

variable (pages : FreshPages allocKpages freeKpages out) (kept : Kept out heap book)

include pages kept

/-- A page is unlinked, its reference is freed and it goes back to the system. -/
theorem give_back_ensures (member : pr ∈ book.refs) : Succeeds (do
        removeLists pr (book.kind pr)
        freepageref pr
        callFreeKpages freeKpages (book.addr pr)) heap
      (fun _ after => Kept out after (book.remove pr) ∧ ¬ out after.kernel (book.addr pr)) := by
  refine Ensures.bind (remove_lists_ensures kept member) ?_
  intro _ middle removed
  have used : middle.InUse pr := by
    unfold Kheap.InUse
    rw [removed.kheaproots]
    exact (kept.inuse pr).mpr member
  have roots : RootsSound out middle :=
    (kept.toPlaced.same removed.kheaproots (fun _ held => removed.kernel ▸ held)).roots
  refine Ensures.bind (freepageref_ensures roots used) ?_
  intro _ ready released
  have kernels : ready.kernel = heap.kernel := released.kernel.trans removed.kernel
  have held : ∀ p, out (freeKpages (book.addr pr) ready.kernel) p ↔
      out heap.kernel p ∧ p ≠ book.addr pr := by
    intro p
    rw [pages.returned, kernels]
  exact ensures_change ⟨kept.remove member removed released held, fun still => ((held _).mp still).2 rfl⟩

/-- `subpage_kfree` on a live block gives the block back, and its page when that was the last live
block of it. -/
theorem subpage_kfree_ensures (busy : book.Busy) (live : book.Live x) :
    Succeeds (subpageKfree freeKpages x) heap
      (fun result after => result = 0 ∧ ∃ later, Freed out book x after later) := by
  obtain ⟨pr, member, block, taken⟩ := live
  have sound := kept.page pr member
  have area := kept.area pr member
  obtain ⟨low, high, aligned⟩ := (mem_blocks _ x sound.known).mp block
  have bounded := area.bounded
  have offset : (x + addressRange - book.addr pr) % addressRange = x - book.addr pr := by
    unfold addressRange at bounded ⊢
    omega
  have place : (book.addr pr + (x - book.addr pr)) % addressRange = x := by
    rw [Nat.add_sub_cancel' low]
    exact Nat.mod_eq_of_lt (by omega)
  have elsewhere := kept.toPlaced.elsewhere member member
  obtain ⟨on_page, page⟩ := sound.put_back area elsewhere block taken
  have changed := kept.change_page member on_page page
  unfold subpageKfree
  refine bind_done rfl ?_
  refine Ensures.bind (find_page_ensures kept member low high (totalPagerefs + 1) none _
    (kept.lists .all True.intro) (fun _ listed => listed) member
    (Nat.lt_succ_of_le (kept.toPlaced.on_list_length .all))) ?_
  rintro _ heap ⟨rfl, rfl⟩
  simp only [id, sound.pageaddr area, sound.blocktype area]
  refine bind_done (check_passes ?_) ?_
  · rw [sound.pageaddr area, sound.blocktype area, offset]
    exact ⟨by omega, aligned⟩
  · rw [offset, place]
    refine bind_done rfl (Ensures.bind (link_free_ensures area sound elsewhere block taken) ?_)
    rintro _ _ rfl
    refine bind_done rfl (bind_done rfl (bind_done rfl ?_))
    have count : (heap.putBack pr (book.addr pr) (book.kind pr) x).nfree pr =
        (x :: book.free pr).length := page.count
    have finishing : Succeeds (onlyIf ((heap.putBack pr (book.addr pr) (book.kind pr) x).nfree pr =
          pageSize / sizes (heap.prBlocktype pr)) (do
        removeLists pr (book.kind pr)
        freepageref pr
        callFreeKpages freeKpages (book.addr pr))) (heap.putBack pr (book.addr pr) (book.kind pr) x)
        (fun _ after => ∃ later, Freed out book x after later) := by
      rw [sound.blocktype area, count]
      refine ensures_only_if (fun full => ?_)
        (fun room => ⟨_, freed_stays kept busy member block changed room⟩)
      refine (give_back_ensures pages changed member).on_return ?_
      rintro _ after ⟨given, back⟩
      exact ⟨_, freed_back kept busy member block (fun _ other_block => page.all_free full other_block)
        given back⟩
    refine bind_done (check_passes ?_) (Ensures.bind finishing ?_)
    · rw [sound.blocktype area]
      exact Nat.le_trans (Nat.le_of_eq count) page.length_le
    · intro _ after freed
      exact ensures_pure ⟨rfl, freed⟩

theorem kfree_ensures (busy : book.Busy) (live : book.Live x) :
    Succeeds (kfree freeKpages x) heap (fun _ after => ∃ later, Freed out book x after later) := by
  obtain ⟨pr, member, block, taken⟩ := live
  have real := (kept.area pr member).real
  have low := (block_within (kept.page pr member).known block).1
  unfold kfree
  rw [if_neg (show x ≠ 0 by omega)]
  refine Ensures.bind (subpage_kfree_ensures pages kept busy ⟨pr, member, block, taken⟩) ?_
  rintro result after ⟨rfl, freed⟩
  exact ensures_only_if (fun nonzero => absurd rfl nonzero) (fun _ => freed)

end

end

end Os161.Kmalloc
