import Os161.Library.Runs
import Os161.Kmalloc.Free

/-!
# Runs of the kernel heap

Any sequence of calls of `kmalloc` with small sizes and of `kfree` of pointers that were
returned and not freed since. Between the calls whoever has a block writes into it, and
pages that nobody has may come to hold anything. In every state that is reached the heap
is in order, and the next call trips over no assertion.
-/
namespace Os161.Kmalloc

open Os161.Library Os161.Library.Chain Os161.Library.Program Os161.Library.Runs Function

variable {Kernel : Type}

/-- A heap, and the sizes that were asked for of the pointers that are live. -/
structure World (Kernel : Type) where
  heap : Kheap Kernel
  live : Nat → Option Nat

/-- Calls of the allocator, and a write to memory by somebody else. -/
inductive Event
  | kmalloc (sz : Nat)
  | kfree (ptr : Nat)
  | write (address value : Nat)

section

variable (allocKpages : Nat → Kernel → Option (Nat × Kernel)) (freeKpages : Nat → Kernel → Kernel)
  (out : Kernel → Nat → Prop)

/-- The world after `kmalloc`. -/
def World.allocated (world : World Kernel) (sz p : Nat) (after : Kheap Kernel) : World Kernel where
  heap := after
  live := if p = 0 then world.live else update world.live p (some sz)

/-- The world after `kfree`. -/
def World.freed (world : World Kernel) (ptr : Nat) (after : Kheap Kernel) : World Kernel where
  heap := after
  live := update world.live ptr none

/-- A call that returns, or a write. -/
def next (world : World Kernel) : Event → Option (World Kernel)
  | .kmalloc sz =>
    match kmalloc allocKpages freeKpages sz world.heap with
    | .done p after => some (world.allocated sz p after)
    | _ => none
  | .kfree ptr =>
    match kfree freeKpages ptr world.heap with
    | .done _ after => some (world.freed ptr after)
    | _ => none
  | .write address value => some { world with heap := world.heap.store address value }

/-- Sizes below the one from which on whole pages are allocated, pointers that were
returned and not freed since, and writes into live blocks or to pages nobody has. -/
def Permitted (world : World Kernel) : Event → Prop
  | .kmalloc sz => sz < largestSubpageSize
  | .kfree ptr => ptr = 0 ∨ world.live ptr ≠ none
  | .write address _ => (∃ x sz, world.live x = some sz ∧ x ≤ address ∧ address < x + sz) ∨
      ∀ page, out world.heap.kernel page → ¬ (page ≤ address ∧ address < page + pageSize)

/-- Before the first call. -/
structure Started (world : World Kernel) : Prop where
  page : ∀ whichroot < numPagerefpages, (world.heap.kheaproots whichroot).page = 0
  inuse : ∀ whichroot < numPagerefpages, ∀ i, (world.heap.kheaproots whichroot).pagerefsInuse i = 0#32
  numinuse : ∀ whichroot < numPagerefpages, (world.heap.kheaproots whichroot).numinuse = 0
  sizebases : ∀ blktype < nsizes, world.heap.sizebases blktype = 0
  allbase : world.heap.allbase = 0
  live : ∀ x, world.live x = none

/-- The blocks of the page of a page reference. -/
def Kheap.blocksOf (heap : Kheap Kernel) (pr : Nat) : List Nat :=
  blocks (heap.prPageaddr pr) (heap.prBlocktype pr)

/-- What holds between calls. Live blocks are blocks of pages, as large as asked for, and
do not overlap; the free list of a page has its other blocks, each once, and `nfree` counts
them; the page references in use are on the list of all pages and on that of their block
size, each once; and every page has a live block and is held by the allocator. -/
structure KheapSound (world : World Kernel) : Prop where
  placed : ∀ x sz, world.live x = some sz → ∃ pr, world.heap.InUse pr ∧
    x ∈ world.heap.blocksOf pr ∧ sz ≤ sizes (world.heap.prBlocktype pr)
  disjoint : ∀ x y pr other, world.live x ≠ none → world.live y ≠ none → x ≠ y →
    world.heap.InUse pr → x ∈ world.heap.blocksOf pr →
    world.heap.InUse other → y ∈ world.heap.blocksOf other →
    x + sizes (world.heap.prBlocktype pr) ≤ y ∨ y + sizes (world.heap.prBlocktype other) ≤ x
  free : ∀ pr, world.heap.InUse pr → ∃ members, Linked 0 (world.heap.freeLink pr) none members ∧
    members.Nodup ∧ world.heap.nfree pr = members.length ∧
    ∀ x, x ∈ members ↔ x ∈ world.heap.blocksOf pr ∧ world.live x = none
  all : ∃ members, Linked 0 (world.heap.link .all) none members ∧ members.Nodup ∧
    ∀ pr, pr ∈ members ↔ world.heap.InUse pr
  samesize : ∀ blktype < nsizes, ∃ members,
    Linked 0 (world.heap.link (.samesize blktype)) none members ∧ members.Nodup ∧
    ∀ pr, pr ∈ members ↔ world.heap.InUse pr ∧ world.heap.prBlocktype pr = blktype
  known : ∀ pr, world.heap.InUse pr → world.heap.prBlocktype pr < nsizes
  busy : ∀ pr, world.heap.InUse pr → ∃ x ∈ world.heap.blocksOf pr, world.live x ≠ none
  held : ∀ pr, world.heap.InUse pr → out world.heap.kernel (world.heap.prPageaddr pr)

/-- A call returns. `kmalloc` may instead be left waiting for the page allocator, but only
for one that does not answer two calls. -/
def Returns (world : World Kernel) : Event → Prop
  | .kmalloc sz => (∃ p after, kmalloc allocKpages freeKpages sz world.heap = .done p after) ∨
      Unserved allocKpages world.heap.kernel ∧
        ∃ after, kmalloc allocKpages freeKpages sz world.heap = .fail .allocKpages after
  | .kfree ptr => ∃ after, kfree freeKpages ptr world.heap = .done PUnit.unit after
  | .write _ _ => True

/-- A page of the heap is given back exactly when none of its blocks is live then. -/
def PagesBack (world after : World Kernel) : Prop :=
  ∀ pr, world.heap.InUse pr → (¬ out after.heap.kernel (world.heap.prPageaddr pr) ↔
    ∀ x ∈ world.heap.blocksOf pr, after.live x = none)

/-- The next call returns and gives pages back as it should. -/
def CallSound (world : World Kernel) (event : Event) : Prop :=
  Returns allocKpages freeKpages world event ∧
    ∀ after, next allocKpages freeKpages world event = some after → PagesBack out world after

end

variable {allocKpages : Nat → Kernel → Option (Nat × Kernel)} {freeKpages : Nat → Kernel → Kernel}
  {out : Kernel → Nat → Prop}

/-- The invariant: the heap spells out a book that has the live blocks. -/
structure Managed (out : Kernel → Nat → Prop) (world : World Kernel) (book : Book) : Prop where
  kept : Kept out world.heap book
  busy : book.Busy
  live : ∀ x, world.live x ≠ none ↔ book.Live x
  sized : ∀ x sz, world.live x = some sz →
    ∃ pr ∈ book.refs, x ∈ blocks (book.addr pr) (book.kind pr) ∧ sz ≤ sizes (book.kind pr)

/-- The heap spells out some book. -/
def Maintained (out : Kernel → Nat → Prop) (world : World Kernel) : Prop :=
  ∃ book, Managed out world book

variable {after : Kheap Kernel} {later : Book} {pr : Nat}

section

variable {world : World Kernel} {book : Book}

section

variable (managed : Managed out world book)

include managed

theorem Managed.pageaddr (member : pr ∈ book.refs) : world.heap.prPageaddr pr = book.addr pr :=
  (managed.kept.page pr member).pageaddr (managed.kept.area pr member)

theorem Managed.blocktype (member : pr ∈ book.refs) : world.heap.prBlocktype pr = book.kind pr :=
  (managed.kept.page pr member).blocktype (managed.kept.area pr member)

theorem Managed.blocks_of (member : pr ∈ book.refs) :
    world.heap.blocksOf pr = blocks (book.addr pr) (book.kind pr) := by
  unfold Kheap.blocksOf
  rw [managed.pageaddr member, managed.blocktype member]

theorem Managed.member (used : world.heap.InUse pr) : pr ∈ book.refs :=
  (managed.kept.inuse pr).mp used

/-- What the book says of the heap gives the soundness of the heap. -/
theorem Managed.sound : KheapSound out world where
  placed := by
    intro x sz asked
    obtain ⟨pr, member, block, large⟩ := managed.sized x sz asked
    refine ⟨pr, (managed.kept.inuse pr).mpr member, ?_, ?_⟩
    · rw [managed.blocks_of member]
      exact block
    · rw [managed.blocktype member]
      exact large
  disjoint := by
    intro x y pr other _ _ different used block other_used other_block
    have member := managed.member used
    have other_member := managed.member other_used
    rw [managed.blocks_of member] at block
    rw [managed.blocks_of other_member] at other_block
    rw [managed.blocktype member, managed.blocktype other_member]
    have known := (managed.kept.page pr member).known
    have other_known := (managed.kept.page other other_member).known
    obtain rfl | same := eq_or_ne pr other
    · exact blocks_disjoint known block other_block different
    · have apart := managed.kept.toPlaced.pages_apart member other_member same
      obtain ⟨low, high⟩ := block_within known block
      obtain ⟨other_low, other_high⟩ := block_within other_known other_block
      omega
  free := by
    intro pr used
    have member := managed.member used
    have sound := managed.kept.page pr member
    refine ⟨book.free pr, sound.linked, sound.nodup, sound.count, fun x => ?_⟩
    rw [managed.blocks_of member]
    constructor
    · intro free
      refine ⟨sound.within free, ?_⟩
      by_contra live
      obtain ⟨other, other_member, other_block, taken⟩ := (managed.live x).mp live
      obtain rfl := managed.kept.page_of_block other_member member other_block (sound.within free)
      exact taken free
    · rintro ⟨block, dead⟩
      by_contra taken
      exact (managed.live x).mpr ⟨pr, member, block, taken⟩ dead
  all := ⟨book.refs, managed.kept.lists .all True.intro, managed.kept.nodup,
    fun pr => (managed.kept.inuse pr).symm⟩
  samesize := by
    intro blktype below
    refine ⟨_, managed.kept.lists (.samesize blktype) below, managed.kept.nodup.filter _, fun pr => ?_⟩
    show pr ∈ book.refs.filter _ ↔ _
    rw [List.mem_filter, managed.kept.inuse pr, decide_eq_true_eq]
    exact and_congr_right (fun member => by rw [managed.blocktype member])
  known := by
    intro pr used
    have member := managed.member used
    rw [managed.blocktype member]
    exact (managed.kept.page pr member).known
  busy := by
    intro pr used
    have member := managed.member used
    obtain ⟨x, block, live⟩ := managed.busy pr member
    rw [managed.blocks_of member]
    exact ⟨x, block, (managed.live x).mpr live⟩
  held := by
    intro pr used
    have member := managed.member used
    rw [managed.pageaddr member]
    exact (managed.kept.area pr member).out

/-- Pages that stay in the book are held and have a live block. -/
theorem Managed.pages_back {after : World Kernel} (managed_after : Managed out after later)
    (stays : ∀ pr ∈ book.refs,
      (pr ∈ later.refs ↔ ∃ y ∈ blocks (book.addr pr) (book.kind pr), later.Live y))
    (address : ∀ pr ∈ later.refs, pr ∈ book.refs → later.addr pr = book.addr pr)
    (back : ∀ pr ∈ book.refs, pr ∉ later.refs → ¬ out after.heap.kernel (book.addr pr)) :
    PagesBack out world after := by
  intro pr used
  have member := managed.member used
  rw [managed.pageaddr member, managed.blocks_of member]
  have dead : (∀ x ∈ blocks (book.addr pr) (book.kind pr), after.live x = none) ↔ pr ∉ later.refs := by
    rw [stays pr member]
    push Not
    exact forall₂_congr (fun x _ => by rw [← managed_after.live x, not_not])
  rw [dead]
  refine ⟨fun given stays_on => given ?_, back pr member⟩
  rw [← address pr stays_on member]
  exact (managed_after.kept.area pr stays_on).out

/-- With the same book no page is given back. -/
theorem Managed.pages_kept {after : World Kernel} (managed_after : Managed out after book) :
    PagesBack out world after := by
  refine managed.pages_back managed_after ?_ (fun _ _ _ => rfl) ?_
  · exact fun pr member => iff_of_true member (managed.busy pr member)
  · exact fun pr member gone => absurd member gone

end

theorem Started.managed (started : Started world) :
    Managed out world ⟨[], fun _ => 0, fun _ => 0, fun _ => []⟩ := by
  have unused : ∀ whichroot < numPagerefpages, ∀ j, (world.heap.kheaproots whichroot).inuse j = false := by
    intro whichroot below j
    unfold KheapRoot.inuse
    rw [started.inuse whichroot below, BitVec.getLsbD_zero]
  have nothing : ∀ x, ¬ (⟨[], fun _ => 0, fun _ => 0, fun _ => []⟩ : Book).Live x := by
    rintro x ⟨pr, member, _⟩
    cases member
  refine ⟨⟨⟨⟨?_, ?_⟩, ?_, List.nodup_nil, nofun, nofun, nofun⟩, ?_, nofun⟩, nofun, ?_, ?_⟩
  · intro whichroot below
    have missing := started.page whichroot below
    refine ⟨?_, fun _ => started.numinuse whichroot below, ?_, ?_, fun real => absurd missing real⟩
    · rw [started.numinuse whichroot below, eq_comm, Finset.card_eq_zero, Finset.eq_empty_iff_forall_notMem]
      intro j member
      have bit := ((KheapRoot.mem_used _ j).mp member).2
      rw [unused whichroot below j] at bit
      cases bit
    · rw [missing]
      decide
    · rw [missing]
      decide
  · intro first first_below _ _ real
    exact absurd (started.page first first_below) real
  · intro pr
    refine iff_of_false ?_ List.not_mem_nil
    rintro ⟨whichroot, below, j, _, bit, _⟩
    rw [unused whichroot below j] at bit
    cases bit
  · intro listing real
    cases listing with
    | samesize blktype => exact started.sizebases blktype real
    | all => exact started.allbase
  · exact fun x => iff_of_false (fun live => live (started.live x)) (nothing x)
  · intro x sz asked
    rw [started.live x] at asked
    cases asked

/-- A write that hits no page reference and no free block. -/
theorem Kept.write {heap : Kheap Kernel} (kept : Kept out heap book) (address value : Nat)
    (not_field : ∀ pr ∈ book.refs, ∀ offset < pagerefSize, pr + offset ≠ address)
    (not_free : ∀ pr ∈ book.refs, ∀ x ∈ book.free pr, x ≠ address) :
    Kept out (heap.store address value) book where
  toPlaced := kept.toPlaced.same rfl (fun _ held => held)
  lists := by
    intro listing real
    refine (kept.lists listing real).redirect ?_ (fun pr listed => ?_)
    · exact link_eq rfl rfl nofun
    · refine link_eq rfl rfl (fun y same offset which => update_of_ne ?_ _ _)
      cases same
      refine not_field pr (book.on_list_subset listing listed) offset ?_
      unfold pagerefSize
      omega
  page := fun pr member => (kept.page pr member).frame
    (fun offset inside _ => update_of_ne (not_field pr member offset inside) _ _)
    (fun x free => update_of_ne (not_free pr member x free) _ _)

section

variable (managed : Managed out world book)

include managed

/-- A write into a live block, or to a page nobody has, keeps the book. -/
theorem Managed.write {address value : Nat}
    (permitted : Permitted out world (.write address value)) :
    Managed out { world with heap := world.heap.store address value } book := by
  refine { managed with kept := managed.kept.write address value ?_ ?_ }
  · intro pr member offset inside same
    rcases permitted with ⟨x, sz, asked, low, high⟩ | outside
    · obtain ⟨owner, owner_member, block, large⟩ := managed.sized x sz asked
      obtain ⟨page_low, page_high⟩ :=
        block_within (managed.kept.page owner owner_member).known block
      exact managed.kept.toPlaced.field_apart member owner_member inside (by omega) (by omega) same
    · obtain ⟨place, _, whichroot, below, real, page⟩ :=
        managed.kept.roots.in_use_place ((managed.kept.inuse pr).mpr member)
      refine outside _ ((managed.kept.roots.root whichroot below).out real) ?_
      unfold pageSize pagerefSize at *
      omega
  · intro pr member y free same
    obtain ⟨y_low, y_high⟩ := managed.kept.free_on_page member free
    rcases permitted with ⟨x, sz, asked, low, high⟩ | outside
    · obtain ⟨owner, owner_member, block, large⟩ := managed.sized x sz asked
      have known := (managed.kept.page owner owner_member).known
      obtain ⟨page_low, page_high⟩ := block_within known block
      have owns : owner = pr := by
        by_contra different
        have apart := managed.kept.toPlaced.pages_apart owner_member member different
        omega
      subst owns
      have y_block := (managed.kept.page owner owner_member).within free
      obtain rfl | first := eq_or_ne x y
      · obtain ⟨other, other_member, other_block, taken⟩ :=
          (managed.live x).mp (by rw [asked]; exact Option.some_ne_none sz)
        obtain rfl := managed.kept.page_of_block other_member owner_member other_block block
        exact taken free
      · have apart := blocks_disjoint known block y_block first
        omega
    · exact outside _ (managed.kept.area pr member).out ⟨by omega, by omega⟩

/-- An allocation leaves a heap with a book, and gives pages back as it should. -/
theorem Managed.allocated {sz p : Nat} (allocated : Allocated out book sz p after later) :
    Managed out (world.allocated sz p after) later ∧ PagesBack out world (world.allocated sz p after) := by
  obtain ⟨owner, owner_member, block, large⟩ := allocated.place
  have real : p ≠ 0 := by
    have positive := (allocated.kept.area owner owner_member).real
    have low := (block_within (allocated.kept.page owner owner_member).known block).1
    omega
  have live_is : ∀ x, (world.allocated sz p after).live x = update world.live p (some sz) x := by
    intro x
    unfold World.allocated
    rw [if_neg real]
  have kept_live : ∀ x, book.Live x → later.Live x := fun x live => (allocated.live x).mpr (Or.inl live)
  have busy : later.Busy := by
    intro pr member
    rcases allocated.pages pr member with old | on_page
    · obtain ⟨x, x_block, live⟩ := managed.busy pr old
      obtain ⟨_, address, kind⟩ := allocated.grown pr old
      rw [address, kind]
      exact ⟨x, x_block, kept_live x live⟩
    · exact ⟨p, on_page, (allocated.live p).mpr (Or.inr rfl)⟩
  have managed_after : Managed out (world.allocated sz p after) later := by
    refine ⟨allocated.kept, busy, fun x => ?_, fun x asked_size asked => ?_⟩
    · rw [live_is, allocated.live x, ← managed.live x]
      obtain rfl | new := eq_or_ne x p
      · rw [update_self]
        exact iff_of_true (Option.some_ne_none sz) (Or.inr rfl)
      · rw [update_of_ne new]
        exact ⟨Or.inl, fun either => either.resolve_right new⟩
    · rw [live_is] at asked
      obtain rfl | new := eq_or_ne x p
      · rw [update_self] at asked
        cases asked
        exact ⟨owner, owner_member, block, large⟩
      · rw [update_of_ne new] at asked
        obtain ⟨pr, member, x_block, x_large⟩ := managed.sized x asked_size asked
        obtain ⟨stays, address, kind⟩ := allocated.grown pr member
        rw [← address, ← kind] at x_block
        rw [← kind] at x_large
        exact ⟨pr, stays, x_block, x_large⟩
  refine ⟨managed_after, managed.pages_back managed_after ?_ ?_ ?_⟩
  · intro pr member
    obtain ⟨x, x_block, live⟩ := managed.busy pr member
    exact iff_of_true (allocated.grown pr member).1 ⟨x, x_block, kept_live x live⟩
  · exact fun pr _ member => (allocated.grown pr member).2.1
  · exact fun pr member gone => absurd (allocated.grown pr member).1 gone

/-- `kmalloc` that returns null keeps the invariant, and pages. -/
theorem Managed.refused {sz : Nat} (kept : Kept out after book) :
    Managed out (world.allocated sz 0 after) book ∧ PagesBack out world (world.allocated sz 0 after) := by
  have managed_after : Managed out (world.allocated sz 0 after) book :=
    { managed with kept := kept }
  exact ⟨managed_after, managed.pages_kept managed_after⟩

/-- `kfree` keeps the invariant and gives back the page that has no live block left. -/
theorem Managed.freed {x : Nat} (freed : Freed out book x after later) :
    Managed out (world.freed x after) later ∧ PagesBack out world (world.freed x after) := by
  have managed_after : Managed out (world.freed x after) later := by
    refine ⟨freed.kept, fun pr member => ?_, fun y => ?_, fun y sz asked => ?_⟩
    · obtain ⟨old, address, kind⟩ := freed.shrunk pr member
      rw [address, kind]
      exact (freed.stays pr old).mp member
    · rw [freed.live y, ← managed.live y]
      show update world.live x none y ≠ none ↔ _
      obtain rfl | same := eq_or_ne y x
      · rw [update_self]
        exact iff_of_false (fun live => live rfl) (fun both => both.2 rfl)
      · rw [update_of_ne same]
        exact ⟨fun live => ⟨live, same⟩, And.left⟩
    · have different : y ≠ x := by
        rintro rfl
        rw [show (world.freed y after).live y = none from update_self _ _ _] at asked
        cases asked
      have was : world.live y = some sz := (update_of_ne different _ _).symm.trans asked
      obtain ⟨pr, member, block, large⟩ := managed.sized y sz was
      have live : later.Live y :=
        (freed.live y).mpr ⟨(managed.live y).mp (by rw [was]; exact Option.some_ne_none sz), different⟩
      have stays := (freed.stays pr member).mpr ⟨y, block, live⟩
      obtain ⟨_, address, kind⟩ := freed.shrunk pr stays
      rw [← address, ← kind] at block
      rw [← kind] at large
      exact ⟨pr, stays, block, large⟩
  refine ⟨managed_after, managed.pages_back managed_after freed.stays ?_ freed.back⟩
  exact fun pr member _ => (freed.shrunk pr member).2.1

/-- Every permitted event returns, and leaves a heap with a book. One case per event. -/
theorem Managed.step (pages : FreshPages allocKpages freeKpages out)
    (event : Event) (permitted : Permitted out world event) :
    Returns allocKpages freeKpages world event ∧
      ∀ after, next allocKpages freeKpages world event = some after →
        (∃ later, Managed out after later) ∧ PagesBack out world after := by
  cases event with
  | kmalloc sz =>
    have outcome := (kmalloc_ensures pages managed.kept permitted).outcome
    cases ended : kmalloc allocKpages freeKpages sz world.heap with
    | stop reason =>
      rw [ended] at outcome
      exact outcome.elim
    | fail error after =>
      rw [ended] at outcome
      cases error
      refine ⟨Or.inr ⟨outcome, after, ended⟩, fun later taken => ?_⟩
      simp only [next, ended, reduceCtorEq] at taken
    | done p after =>
      rw [ended] at outcome
      refine ⟨Or.inl ⟨p, after, ended⟩, fun later taken => ?_⟩
      simp only [next, ended, Option.some.injEq] at taken
      subst taken
      rcases outcome with ⟨rfl, kept⟩ | ⟨others, allocated⟩
      · exact ⟨⟨book, (managed.refused kept).1⟩, (managed.refused kept).2⟩
      · exact ⟨⟨others, (managed.allocated allocated).1⟩, (managed.allocated allocated).2⟩
  | kfree ptr =>
    obtain rfl | null := eq_or_ne ptr 0
    · have ended : kfree freeKpages 0 world.heap = .done PUnit.unit world.heap := rfl
      refine ⟨⟨world.heap, ended⟩, fun later taken => ?_⟩
      simp only [next, ended, Option.some.injEq] at taken
      subst taken
      have dead : world.live 0 = none := by
        by_contra live
        obtain ⟨pr, member, block, _⟩ := (managed.live 0).mp live
        have low := (block_within (managed.kept.page pr member).known block).1
        exact (managed.kept.area pr member).real (Nat.le_zero.mp low)
      have same : world.freed 0 world.heap = world := by
        unfold World.freed
        rw [← dead, update_eq_self]
      rw [same]
      exact ⟨⟨book, managed⟩, managed.pages_kept managed⟩
    · have live := (managed.live ptr).mp (permitted.resolve_left null)
      obtain ⟨_, after, ended, later, freed⟩ :=
        (kfree_ensures pages managed.kept managed.busy live).returned
      refine ⟨⟨after, ended⟩, fun last taken => ?_⟩
      simp only [next, ended, Option.some.injEq] at taken
      subst taken
      exact ⟨⟨later, (managed.freed freed).1⟩, (managed.freed freed).2⟩
  | write address value =>
    refine ⟨True.intro, fun after taken => ?_⟩
    simp only [next, Option.some.injEq] at taken
    subst taken
    have written := managed.write permitted
    exact ⟨⟨book, written⟩, managed.pages_kept written⟩

end

end

/-- In every run of small allocations and of frees of live pointers the heap is in order
between calls, and the next call returns and gives pages back when they are free. -/
theorem kheap_in_order (pages : FreshPages allocKpages freeKpages out) {world : World Kernel}
    (reached : Reaches (next allocKpages freeKpages) (Permitted out) Started world) :
    KheapSound out world ∧ ∀ event, Permitted out world event →
      CallSound allocKpages freeKpages out world event := by
  obtain ⟨book, managed⟩ : Maintained out world := by
    refine Reaches.invariant ?_ ?_ reached
    · exact fun _ started => ⟨_, started.managed⟩
    · rintro before event after ⟨book, managed⟩ permitted taken
      exact ((managed.step pages event permitted).2 after taken).1
  refine ⟨managed.sound, fun event permitted => ?_⟩
  obtain ⟨returns, steps⟩ := managed.step pages event permitted
  exact ⟨returns, fun after taken => (steps after taken).2⟩

/-- A page allocator with a few pages, that knows which of them are out. -/
def poolAlloc (_npages : Nat) (out : List Nat) : Option (Nat × List Nat) :=
  (((List.range 8).map (fun i => (i + 1) * pageSize)).find? (fun page => page ∉ out)).map
    (fun page => (page, page :: out))

/-- The pool takes a page back. -/
def poolFree (address : Nat) (out : List Nat) : List Nat := out.filter (fun page => page ≠ address)

/-- Pages from a pool are fresh: the assumption on the page allocator can be met. -/
theorem pool_fresh : FreshPages poolAlloc poolFree (fun out page => page ∈ out) := by
  have answered : ∀ out page after, poolAlloc 1 out = some (page, after) →
      page ∈ (List.range 8).map (fun i => (i + 1) * pageSize) ∧ page ∉ out ∧ after = page :: out := by
    intro out page after answer
    obtain ⟨found, searched, same⟩ := Option.map_eq_some_iff.mp answer
    cases same
    have fresh := List.find?_some searched
    exact ⟨List.mem_of_find?_eq_some searched, of_decide_eq_true fresh, rfl⟩
  refine ⟨fun out page after answer => ?_, fun out page after answer p => ?_, fun out page p => ?_⟩
  · obtain ⟨pooled, fresh, _⟩ := answered out page after answer
    obtain ⟨i, below, rfl⟩ := List.mem_map.mp pooled
    have small := List.mem_range.mp below
    unfold pageSize addressRange
    exact ⟨by omega, by omega, by omega, fresh⟩
  · obtain ⟨_, _, rfl⟩ := answered out page after answer
    exact List.mem_cons.trans or_comm
  · unfold poolFree
    rw [List.mem_filter, decide_eq_true_eq]

/-- Nothing allocated, and nothing in memory. -/
def booted : World (List Nat) where
  heap :=
    { memory := fun _ => 0
      kheaproots := fun _ => ⟨0, fun _ => 0#32, 0⟩
      sizebases := fun _ => 0
      allbase := 0
      kernel := [] }
  live := fun _ => none

theorem booted_started : Started booted where
  page := fun _ _ => rfl
  inuse := fun _ _ _ => rfl
  numinuse := fun _ _ => rfl
  sizebases := fun _ _ => rfl
  allbase := rfl
  live := fun _ => rfl

/-- A test that implies that an event is permitted. -/
def permits (world : World (List Nat)) : Event → Bool
  | .kmalloc sz => decide (sz < largestSubpageSize)
  | .kfree ptr => (world.live ptr).isSome
  | .write address _ => decide (∀ page ∈ world.heap.kernel, ¬ (page ≤ address ∧ address < page + pageSize))

theorem permits_permitted (world : World (List Nat)) (event : Event) (tested : permits world event = true) :
    Permitted (fun out page => page ∈ out) world event := by
  cases event with
  | kmalloc sz =>
    show sz < largestSubpageSize
    exact of_decide_eq_true tested
  | kfree ptr => exact Or.inr (Option.ne_none_iff_isSome.mpr tested)
  | write address value =>
    have outside : ∀ page ∈ world.heap.kernel, ¬ (page ≤ address ∧ address < page + pageSize) :=
      of_decide_eq_true tested
    exact Or.inr outside

/-- A page fills up, another one is started, and the first one is emptied again. -/
def comeAndGo : List Event :=
  [.write 6144 7, .kmalloc 2000, .kmalloc 2040, .kmalloc 1500, .kfree 6144, .kfree 4096]

/-- After that run one page is back, the heap has one live block, and it is in order. -/
theorem kheap_in_order_after_run : FreshPages poolAlloc poolFree (fun out page => page ∈ out) ∧
      ∃ world : World (List Nat),
        Reaches (next poolAlloc poolFree) (Permitted (fun out page => page ∈ out)) Started world ∧
        world.live 14336 = some 1500 ∧ world.live 6144 = none ∧ world.heap.kernel = [12288, 8192] ∧
        KheapSound (fun out page => page ∈ out) world ∧
        CallSound poolAlloc poolFree (fun out page => page ∈ out) world (.kfree 14336) := by
  obtain ⟨world, evaluated, live, dead, pages⟩ : ∃ world ∈ exec (next poolAlloc poolFree)
      booted comeAndGo, world.live 14336 = some 1500 ∧ world.live 6144 = none ∧
      world.heap.kernel = [12288, 8192] := by
    decide +kernel
  have reached := reaches_of_permitted permits_permitted (.start booted booted_started)
    (by decide +kernel) evaluated
  obtain ⟨sound, calls⟩ := kheap_in_order pool_fresh reached
  refine ⟨pool_fresh, world, reached, live, dead, pages, sound, calls _ (Or.inr ?_)⟩
  rw [live]
  exact Option.some_ne_none 1500

end Os161.Kmalloc
