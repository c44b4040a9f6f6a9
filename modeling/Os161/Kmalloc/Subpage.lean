import Os161.Kmalloc.Allocate

/-!
# `kmalloc` of small sizes

A block of the right size is found on the list of pages of that size, or on a page that
is added to the heap. When `kmalloc` returns a block, the book has that block live and
what was live before; when it returns null, the book is the same.
-/
namespace Os161.Kmalloc

open Os161.Library Os161.Library.Chain Os161.Library.Program Function

variable {Kernel : Type} {out : Kernel → Nat → Prop}

/-- `blocktype` finds a block size that is large enough. -/
theorem blocktype_ensures (heap : Kheap Kernel) {sz : Nat} (small : sz < largestSubpageSize) :
    Succeeds (blocktype sz) heap
      (fun kind after => after = heap ∧ kind < nsizes ∧ sz ≤ sizes kind) := by
  unfold blocktype
  split
  next kind found =>
    have below := List.mem_range.mp (List.mem_of_find?_eq_some found)
    have large := List.find?_some found
    exact ensures_pure ⟨rfl, below, of_decide_eq_true large⟩
  next missing =>
    have last := List.find?_eq_none.mp missing 7 (by decide)
    refine absurd (decide_eq_true ?_) last
    exact Nat.le_of_lt small

section

variable {heap : Kheap Kernel} {book : Book}

/-- The search along the list of a block size returns a page that has a free block. -/
theorem find_free_ensures (kept : Kept out heap book) (kind rounds : Nat) (guy : Option Nat)
    (members : List Nat) (linked : Linked 0 (heap.link (.samesize kind)) guy members)
    (listed : ∀ pr ∈ members, pr ∈ book.refs ∧ book.kind pr = kind) (enough : members.length < rounds) :
    Succeeds (findFree kind rounds (heap.link (.samesize kind) guy)) heap
      (fun found after => after = heap ∧ ∀ pr, found = some pr →
        pr ∈ book.refs ∧ book.kind pr = kind ∧ book.free pr ≠ []) := by
  induction rounds generalizing guy members with
  | zero => omega
  | succ rounds ih =>
    unfold findFree
    cases members with
    | nil =>
      have ended : heap.link (.samesize kind) guy = 0 := linked
      rw [if_pos ended]
      exact ensures_pure ⟨rfl, nofun⟩
    | cons pr rest =>
      obtain ⟨first, real, tail⟩ := linked
      obtain ⟨member, same_kind⟩ := listed pr List.mem_cons_self
      have sound := kept.page pr member
      rw [first, if_neg real]
      refine Ensures.bind_done rfl (Ensures.bind_done (check_passes ?_) ?_)
      · exact (sound.blocktype (kept.area pr member)).trans same_kind
      · by_cases some_free : 0 < (id heap).nfree pr
        · rw [if_pos some_free]
          refine ensures_pure ⟨rfl, fun other found => ?_⟩
          obtain rfl := Option.some.inj found
          refine ⟨member, same_kind, fun empty => ?_⟩
          have count := sound.count
          rw [empty] at count
          exact absurd count (Nat.ne_of_gt some_free)
        · rw [if_neg some_free]
          refine ih (some pr) rest tail
            (fun other later => listed other (List.mem_cons_of_mem pr later)) ?_
          rw [List.length_cons] at enough
          omega

/-- The book with a new page, all of whose blocks are free. -/
def Book.add (book : Book) (pr addr kind : Nat) : Book where
  refs := pr :: book.refs
  addr := update book.addr pr addr
  kind := update book.kind pr kind
  free := update book.free pr (blocks addr kind).reverse

variable {pr : Nat}

/-- The new page is in front of the list of all pages and of that of its block size. -/
theorem Book.on_list_add (book : Book) (fresh : pr ∉ book.refs) (addr kind : Nat)
    (listing : Listing) :
    (book.add pr addr kind).onList listing =
      if listing = .all ∨ listing = .samesize kind then pr :: book.onList listing
      else book.onList listing := by
  cases listing with
  | all =>
    rfl
  | samesize blktype =>
    have others : book.refs.filter (fun other => update book.kind pr kind other = blktype) =
        book.refs.filter (fun other => book.kind other = blktype) := by
      refine List.filter_congr (fun other member => ?_)
      rw [update_of_ne (ne_of_mem_of_not_mem member fresh)]
    simp only [Book.onList, Book.add, List.filter_cons, update_self, reduceCtorEq, false_or,
      Listing.samesize.injEq, decide_eq_true_eq]
    by_cases same : blktype = kind
    · rw [if_pos same.symm, if_pos same]
      exact congrArg (pr :: ·) others
    · rw [if_neg (Ne.symm same), if_neg same]
      exact others

variable {ready : Kheap Kernel} {addr : Nat}

/-- A page that has just been handed out. -/
structure NewPage (out : Kernel → Nat → Prop) (heap : Kheap Kernel) (book : Book) (addr : Nat) : Prop
    extends Area (out heap.kernel) addr where
  new : ∀ other ∈ book.refs, book.addr other ≠ addr
  notRoot : ∀ whichroot < numPagerefpages, (heap.kheaproots whichroot).page ≠ addr

section

variable (obtained : Obtained out heap pr ready) (area : NewPage out heap book addr)

include obtained

theorem Placed.fresh (placed : Placed out heap book) : pr ∉ book.refs :=
  fun member => obtained.fresh ((placed.inuse pr).mpr member)

include area

/-- A page is added where a page reference was obtained. -/
theorem Placed.add (placed : Placed out heap book) (kind : Nat) :
    Placed out ready (book.add pr addr kind) := by
  have fresh := placed.fresh obtained
  have address : ∀ other ∈ book.refs, (book.add pr addr kind).addr other = book.addr other :=
    fun other member => update_of_ne (ne_of_mem_of_not_mem member fresh) _ _
  have own : (book.add pr addr kind).addr pr = addr := update_self _ _ _
  refine ⟨obtained.sound, ?_, List.nodup_cons.mpr ⟨fresh, placed.nodup⟩, ?_, ?_, ?_⟩
  · intro other
    rw [obtained.inuse other, placed.inuse other]
    exact or_comm.trans List.mem_cons.symm
  · intro other member
    rcases List.mem_cons.mp member with rfl | old
    · rw [own]
      exact { area.toArea with out := obtained.kept _ area.out }
    · rw [address other old]
      have old_area := placed.area other old
      exact { old_area with out := obtained.kept _ old_area.out }
  · intro first first_member second second_member same
    rcases List.mem_cons.mp first_member with rfl | first_old
    · rcases List.mem_cons.mp second_member with rfl | second_old
      · rfl
      · rw [own, address second second_old] at same
        exact absurd same.symm (area.new second second_old)
    · rcases List.mem_cons.mp second_member with rfl | second_old
      · rw [own, address first first_old] at same
        exact absurd same (area.new first first_old)
      · rw [address first first_old, address second second_old] at same
        exact placed.addrs first first_old second second_old same
  · intro whichroot below other member
    have page : out heap.kernel ((book.add pr addr kind).addr other) ∧
        (book.add pr addr kind).addr other ≠ (heap.kheaproots whichroot).page := by
      rcases List.mem_cons.mp member with rfl | old
      · rw [own]
        exact ⟨area.out, (area.notRoot whichroot below).symm⟩
      · rw [address other old]
        exact ⟨(placed.area other old).out, placed.apart whichroot below other old⟩
    rcases obtained.pages whichroot below with same | elsewhere
    · rw [same]
      exact page.2
    · intro same
      exact elsewhere (same ▸ page.1)

variable {kind : Nat}

/-- The heap spells out the book with the new page once that is set up. -/
theorem Kept.add {after : Kheap Kernel} (kept : Kept out heap book)
    (set_up : SetUp ready pr addr kind after) : Kept out after (book.add pr addr kind) := by
  have placed := kept.toPlaced.add obtained area kind
  have fresh := kept.toPlaced.fresh obtained
  have different : ∀ other ∈ book.refs, other ≠ pr := fun other member => ne_of_mem_of_not_mem member fresh
  have own : (book.add pr addr kind).addr pr = addr := update_self _ _ _
  have old_member : ∀ other ∈ book.refs, other ∈ (book.add pr addr kind).refs :=
    fun other member => List.mem_cons_of_mem pr member
  have new_member : pr ∈ (book.add pr addr kind).refs := List.mem_cons_self
  have fields : ∀ other ∈ book.refs, ∀ offset < pagerefSize,
      after.memory (other + offset) = heap.memory (other + offset) := by
    intro other member offset inside
    rw [← obtained.memory]
    refine set_up.memory _ (fun field field_inside => ?_) ?_
    · exact placed.fields_apart (old_member other member) new_member (different other member) inside
        field_inside
    · rintro ⟨low, high⟩
      exact placed.field_apart (old_member other member) new_member inside (own.symm ▸ low)
        (own.symm ▸ high) rfl
  refine ⟨placed.same set_up.kheaproots (fun _ held => set_up.kernel ▸ held), ?_, ?_⟩
  · intro listing real
    have linked := kept.lists listing real
    have members : ∀ other ∈ book.onList listing,
        after.link listing (some other) = heap.link listing (some other) := by
      intro other on_list
      have member := book.on_list_subset listing on_list
      cases listing with
      | samesize blktype => exact fields other member 0 (by decide)
      | all => exact fields other member 4 (by decide)
    have nonnull : pr ≠ 0 := (placed.roots.in_use_place ((placed.inuse pr).mpr new_member)).2.1
    rw [book.on_list_add fresh]
    by_cases pushed : listing = .all ∨ listing = .samesize kind
    · rw [if_pos pushed]
      rcases pushed with rfl | rfl
      · exact linked.push nonnull set_up.allbase (set_up.nextAll.trans obtained.allbase) members
      · refine linked.push nonnull ?_ (set_up.nextSamesize.trans (congrFun obtained.sizebases kind)) members
        exact (congrFun set_up.sizebases kind).trans (update_self _ _ _)
    · rw [if_neg pushed]
      refine linked.redirect ?_ members
      cases listing with
      | all => exact absurd (Or.inl rfl) pushed
      | samesize blktype =>
        have other_size : blktype ≠ kind := fun same => pushed (Or.inr (congrArg _ same))
        refine (congrFun set_up.sizebases blktype).trans ((update_of_ne other_size _ _).trans ?_)
        exact congrFun obtained.sizebases blktype
  · intro other member
    show PageSound after other (update book.addr pr addr other)
      (update book.kind pr kind other) (update book.free pr _ other)
    rcases List.mem_cons.mp member with rfl | old
    · simp only [update_self]
      exact set_up.page
    simp only [update_of_ne (different other old)]
    refine (kept.page other old).frame (fun offset inside _ => fields other old offset inside) ?_
    intro x free
    obtain ⟨low, high⟩ := kept.free_on_page old free
    have address : (book.add pr addr kind).addr other = book.addr other :=
      update_of_ne (different other old) _ _
    rw [← obtained.memory]
    refine set_up.memory x (fun offset inside same => ?_) ?_
    · exact placed.field_apart new_member (old_member other old) inside (address.symm ▸ low)
        (address.symm ▸ high) same.symm
    · rintro ⟨page_low, page_high⟩
      have apart := placed.pages_apart (old_member other old) new_member (different other old)
      omega

end

/-- What `kmalloc` does when it returns a block: that block is live from then on, it was
not live before, and every page that is new has it. -/
structure Allocated (out : Kernel → Nat → Prop) (book : Book) (sz p : Nat) (after : Kheap Kernel)
    (later : Book) : Prop where
  kept : Kept out after later
  grown : ∀ pr ∈ book.refs,
    pr ∈ later.refs ∧ later.addr pr = book.addr pr ∧ later.kind pr = book.kind pr
  live : ∀ x, later.Live x ↔ book.Live x ∨ x = p
  fresh : ¬ book.Live p
  place : ∃ pr ∈ later.refs, p ∈ blocks (later.addr pr) (later.kind pr) ∧ sz ≤ sizes (later.kind pr)
  pages : ∀ pr ∈ later.refs, pr ∈ book.refs ∨ p ∈ blocks (later.addr pr) (later.kind pr)

/-- A block that is taken off a free list becomes live. -/
theorem Kept.live_pop (kept : Kept out heap book) {x : Nat} {rest : List Nat}
    (member : pr ∈ book.refs) (first : book.free pr = x :: rest) :
    (∀ y, ({ book with free := update book.free pr rest } : Book).Live y ↔
      book.Live y ∨ y = x) ∧ ¬ book.Live x := by
  have sound := kept.page pr member
  have nodup := sound.nodup
  rw [first] at nodup
  have block : x ∈ blocks (book.addr pr) (book.kind pr) :=
    sound.within (first.symm ▸ List.mem_cons_self)
  refine ⟨fun y => ⟨?_, ?_⟩, ?_⟩
  · rintro ⟨other, other_member, other_block, taken⟩
    by_cases here : y = x
    · exact Or.inr here
    refine Or.inl ⟨other, other_member, other_block, ?_⟩
    obtain rfl | same := eq_or_ne other pr
    · simp only [update_self] at taken
      rw [first]
      exact fun free => taken ((List.mem_cons.mp free).resolve_left here)
    · simp only [update_of_ne same] at taken
      exact taken
  · rintro (⟨other, other_member, other_block, taken⟩ | rfl)
    · refine ⟨other, other_member, other_block, ?_⟩
      obtain rfl | same := eq_or_ne other pr
      · simp only [update_self]
        rw [first] at taken
        exact fun free => taken (List.mem_cons_of_mem x free)
      · simp only [update_of_ne same]
        exact taken
    · refine ⟨pr, member, block, ?_⟩
      simp only [update_self]
      exact (List.nodup_cons.mp nodup).1
  · rintro ⟨other, other_member, other_block, taken⟩
    obtain rfl := kept.page_of_block other_member member other_block block
    exact taken (first.symm ▸ List.mem_cons_self)

theorem Book.live_add (book : Book) (fresh : pr ∉ book.refs) (addr kind x : Nat) :
    (book.add pr addr kind).Live x ↔ book.Live x := by
  constructor
  · rintro ⟨other, member, block, taken⟩
    simp only [Book.add] at block taken
    rcases List.mem_cons.mp member with rfl | old
    · simp only [update_self] at block taken
      exact absurd (List.mem_reverse.mpr block) taken
    · simp only [update_of_ne (ne_of_mem_of_not_mem old fresh)] at block taken
      exact ⟨other, old, block, taken⟩
  · rintro ⟨other, old, block, taken⟩
    refine ⟨other, List.mem_cons_of_mem pr old, ?_⟩
    simp only [Book.add, update_of_ne (ne_of_mem_of_not_mem old fresh)]
    exact ⟨block, taken⟩

variable {sz : Nat}

theorem doalloc_kept (kept : Kept out heap book) (member : pr ∈ book.refs)
    (some_free : book.free pr ≠ []) (large : sz ≤ sizes (book.kind pr)) :
    Succeeds (doalloc pr) heap (fun p after => ∃ later, Allocated out book sz p after later ∧
        p ∈ blocks (book.addr pr) (book.kind pr)) := by
  obtain ⟨x, rest, first⟩ := List.exists_cons_of_ne_nil some_free
  have sound := kept.page pr member
  have block : x ∈ blocks (book.addr pr) (book.kind pr) :=
    sound.within (first.symm ▸ List.mem_cons_self)
  obtain ⟨live, fresh⟩ := kept.live_pop member first
  rw [first] at sound
  refine (doalloc_ensures (kept.area pr member) sound (kept.toPlaced.elsewhere member member)).on_return ?_
  rintro p after ⟨rfl, changed, page⟩
  refine ⟨_, ⟨kept.change_page member changed page, ?_, live, fresh, ⟨pr, member, block, large⟩, ?_⟩,
    block⟩
  · exact fun other old => ⟨old, rfl, rfl⟩
  · exact fun other old => Or.inl old

theorem Allocated.of_add {p : Nat} {after : Kheap Kernel} {later : Book} (fresh : pr ∉ book.refs)
    (allocated : Allocated out (book.add pr addr kind) sz p after later)
    (block : p ∈ blocks addr kind) : Allocated out book sz p after later where
  kept := allocated.kept
  grown := by
    intro other old
    obtain ⟨member, address, same_kind⟩ := allocated.grown other (List.mem_cons_of_mem pr old)
    have different := ne_of_mem_of_not_mem old fresh
    exact ⟨member, address.trans (update_of_ne different _ _),
      same_kind.trans (update_of_ne different _ _)⟩
  live := fun x => (allocated.live x).trans (or_congr_left (book.live_add fresh addr kind x))
  fresh := fun live => allocated.fresh ((book.live_add fresh addr kind p).mpr live)
  place := allocated.place
  pages := by
    intro other member
    rcases allocated.pages other member with known | on_page
    · rcases List.mem_cons.mp known with rfl | old
      · obtain ⟨_, address, same_kind⟩ := allocated.grown other List.mem_cons_self
        rw [address, same_kind]
        simp only [Book.add, update_self]
        exact Or.inr block
      · exact Or.inl old
    · exact Or.inr on_page

variable {allocKpages : Nat → Kernel → Option (Nat × Kernel)} {freeKpages : Nat → Kernel → Kernel}

/-- The page allocator would leave one of two calls unanswered. -/
def Unserved (allocKpages : Nat → Kernel → Option (Nat × Kernel)) (kernel : Kernel) : Prop :=
  ∀ page between, allocKpages 1 kernel = some (page, between) → allocKpages 1 between = none

/-- A page that is set up for a page reference that was obtained has a block to return. -/
theorem set_up_and_alloc_ensures (kept : Kept out heap book) (obtained : Obtained out heap pr ready)
    (area : NewPage out heap book addr) (known : kind < nsizes) (large : sz ≤ sizes kind) :
    Succeeds (do
        setUpPage addr pr kind
        doalloc pr) ready
      (fun p after => ∃ later, Allocated out book sz p after later) := by
  have placed := kept.toPlaced.add obtained area kind
  have new_member : pr ∈ (book.add pr addr kind).refs := List.mem_cons_self
  have own : (book.add pr addr kind).addr pr = addr := update_self _ _ _
  have own_kind : (book.add pr addr kind).kind pr = kind := update_self _ _ _
  have elsewhere := placed.elsewhere new_member new_member
  rw [own] at elsewhere
  have some_free : (book.add pr addr kind).free pr ≠ [] := by
    have count : ((book.add pr addr kind).free pr).length = pageSize / sizes kind := by
      simp [Book.add, update_self, List.length_reverse, blocks_length]
    have two := (few_blocks known).1
    exact List.ne_nil_of_length_pos (by omega)
  refine Ensures.bind (set_up_page_ensures known area.toArea elsewhere ready) ?_
  intro _ after set_up
  have added := kept.add obtained area set_up
  refine (doalloc_kept added new_member some_free (own_kind.symm ▸ large)).on_return ?_
  rintro p final ⟨later, allocated, block⟩
  rw [own, own_kind] at block
  exact ⟨later, allocated.of_add (kept.toPlaced.fresh obtained) block⟩

/-- An allocation returns null and keeps the book, or a block that becomes live. It fails only
unserved. -/
abbrev Serves (allocKpages : Nat → Kernel → Option (Nat × Kernel)) (out : Kernel → Nat → Prop)
    (heap : Kheap Kernel) (book : Book) (sz : Nat)
    (program : Program Abort Unanswered (Kheap Kernel) Nat) : Prop :=
  Ensures False program heap
    (fun p after => (p = 0 ∧ Kept out after book) ∨ ∃ later, Allocated out book sz p after later)
    (fun _ _ => Unserved allocKpages heap.kernel)

section

variable (pages : FreshPages allocKpages freeKpages out) (kept : Kept out heap book)

include pages kept

/-- A new page has a block to return, unless there is no page reference for it. -/
theorem make_page_ensures (known : kind < nsizes) (large : sz ≤ sizes kind) :
    Serves allocKpages out heap book sz (makePage allocKpages freeKpages kind) := by
  refine Ensures.bind ((call_alloc_kpages_ensures pages).on_failure ?_) ?_
  · intro _ _ unanswered page between answered
    rw [unanswered] at answered
    cases answered
  · rintro addr _ ⟨kernel, answered, rfl, real, aligned, bounded, fresh_page, taken⟩
    have middle := kept.with_kernel (fun p held => (taken p).mpr (Or.inl held))
    have area : NewPage out { heap with kernel := kernel } book addr := by
      refine ⟨⟨real, aligned, bounded, (taken addr).mpr (Or.inr rfl)⟩, ?_, ?_⟩
      · exact fun other member same => fresh_page (same ▸ (kept.area other member).out)
      · intro whichroot below same
        exact fresh_page (same ▸ (kept.roots.root whichroot below).out (same.symm ▸ real))
    rw [if_neg real]
    refine Ensures.bind_done (check_passes aligned) ?_
    refine Ensures.bind ((allocpageref_ensures pages middle.roots).on_failure ?_) ?_
    · intro _ _ unanswered page between other_answer
      rw [answered] at other_answer
      cases other_answer
      exact unanswered
    · rintro pr ready (⟨rfl, rfl⟩ | ⟨nonnull, obtained⟩)
      · refine Ensures.bind_done rfl (ensures_pure (Or.inl ⟨rfl, kept.with_kernel ?_⟩))
        intro p held
        refine (pages.returned kernel addr p).mpr ⟨(taken p).mpr (Or.inl held), ?_⟩
        rintro rfl
        exact fresh_page held
      · rw [if_neg nonnull]
        exact (set_up_and_alloc_ensures middle obtained area known large).weaken
          (fun _ _ allocated => Or.inr allocated) nofun

/-- `subpage_kmalloc` serves every small size: from a page with a free block, or a new page. -/
theorem subpage_kmalloc_ensures (small : sz < largestSubpageSize) :
    Serves allocKpages out heap book sz (subpageKmalloc allocKpages freeKpages sz) := by
  refine Ensures.bind (blocktype_ensures heap small).unfailing ?_
  rintro kind heap ⟨rfl, known, large⟩
  refine Ensures.bind_done rfl ?_
  have listed : ∀ pr ∈ book.onList (.samesize kind), pr ∈ book.refs ∧ book.kind pr = kind := by
    intro pr on_list
    obtain ⟨member, same⟩ := List.mem_filter.mp on_list
    exact ⟨member, of_decide_eq_true same⟩
  have searching := find_free_ensures kept kind (totalPagerefs + 1) none _
    (kept.lists (.samesize kind) known) listed
    (Nat.lt_succ_of_le (kept.toPlaced.on_list_length (.samesize kind)))
  refine Ensures.bind searching.unfailing ?_
  rintro found heap ⟨rfl, search⟩
  cases found with
  | some pr =>
    obtain ⟨member, same_kind, some_free⟩ := search pr rfl
    refine (doalloc_kept kept member some_free (same_kind.symm ▸ large)).weaken ?_
      nofun
    rintro p after ⟨later, allocated, _⟩
    exact Or.inr ⟨later, allocated⟩
  | none => exact make_page_ensures pages kept known large

theorem kmalloc_ensures (small : sz < largestSubpageSize) :
    Serves allocKpages out heap book sz (kmalloc allocKpages freeKpages sz) := by
  unfold kmalloc
  rw [if_neg (Nat.not_le.mpr small)]
  exact subpage_kmalloc_ensures pages kept small

end

end

end Os161.Kmalloc
