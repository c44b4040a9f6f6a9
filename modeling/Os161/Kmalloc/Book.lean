import Os161.Library.Chain
import Os161.Kmalloc.Pagerefs

/-!
# What the heap spells out

A `Book` lists the page references in the order of the list of all pages, and gives the
address, the block type and the free blocks of the page of each. `Kept` says that the
heap spells out a book: the lists of page references are linked as the book has them, the
references in use are those on the lists, and every page reference has the address, the
type, the free list and the count of its page. The pages of the allocator lie apart, so
that whoever writes to one of them, or to its page reference, leaves the others as they
are.
-/
namespace Os161.Kmalloc

open Os161.Library Os161.Library.Chain Os161.Library.Program Function

variable {pr other kind x offset : Nat}

theorem sizes_cases (below : kind < nsizes) :
    sizes kind = 16 ∨ sizes kind = 32 ∨ sizes kind = 64 ∨ sizes kind = 128 ∨ sizes kind = 256 ∨
      sizes kind = 512 ∨ sizes kind = 1024 ∨ sizes kind = 2048 := by
  revert kind
  decide

/-- The blocks of a page. -/
def blocks (addr kind : Nat) : List Nat :=
  (List.range (pageSize / sizes kind)).map (fun i => addr + i * sizes kind)

theorem blocks_length (addr kind : Nat) : (blocks addr kind).length = pageSize / sizes kind := by
  unfold blocks
  rw [List.length_map, List.length_range]

theorem mem_blocks (addr x : Nat) (below : kind < nsizes) :
    x ∈ blocks addr kind ↔ addr ≤ x ∧ x < addr + pageSize ∧ (x - addr) % sizes kind = 0 := by
  unfold blocks pageSize
  simp only [List.mem_map, List.mem_range]
  constructor
  · rintro ⟨i, i_below, rfl⟩
    rcases sizes_cases below with size | size | size | size | size | size | size | size <;>
      rw [size] at i_below ⊢ <;> omega
  · rintro ⟨low, high, aligned⟩
    refine ⟨(x - addr) / sizes kind, ?_, ?_⟩
    · rcases sizes_cases below with size | size | size | size | size | size | size | size <;>
        rw [size] at aligned ⊢ <;> omega
    · rw [Nat.div_mul_cancel (Nat.dvd_of_mod_eq_zero aligned)]
      omega

theorem blocks_nodup {addr : Nat} (below : kind < nsizes) : (blocks addr kind).Nodup := by
  refine List.nodup_range.map (fun i j same => ?_)
  have positive : 0 < sizes kind := by
    rcases sizes_cases below with size | size | size | size | size | size | size | size <;>
      omega
  exact Nat.eq_of_mul_eq_mul_right positive (Nat.add_left_cancel same)

theorem block_within {addr : Nat} (below : kind < nsizes) (block : x ∈ blocks addr kind) :
    addr ≤ x ∧ x + sizes kind ≤ addr + pageSize := by
  obtain ⟨low, high, aligned⟩ := (mem_blocks addr x below).mp block
  unfold pageSize at high ⊢
  rcases sizes_cases below with size | size | size | size | size | size | size | size <;>
    rw [size] at aligned ⊢ <;> omega

theorem blocks_disjoint {addr y : Nat} (below : kind < nsizes) (block : x ∈ blocks addr kind)
    (other : y ∈ blocks addr kind) (different : x ≠ y) :
    x + sizes kind ≤ y ∨ y + sizes kind ≤ x := by
  obtain ⟨low, high, aligned⟩ := (mem_blocks addr x below).mp block
  obtain ⟨other_low, other_high, other_aligned⟩ := (mem_blocks addr y below).mp other
  rcases sizes_cases below with size | size | size | size | size | size | size | size <;>
    rw [size] at aligned other_aligned ⊢ <;> omega

variable {Kernel : Type} {out : Kernel → Nat → Prop}

/-- The links of the free list of a page: the first block, and what each block holds. -/
def Kheap.freeLink (heap : Kheap Kernel) (pr : Nat) : Option Nat → Nat
  | none => if heap.freelistOffset pr = invalidOffset then 0
      else heap.prPageaddr pr + heap.freelistOffset pr
  | some fl => heap.memory fl

/-- Where a page of the allocator is. -/
structure Area (holds : Nat → Prop) (addr : Nat) : Prop where
  real : addr ≠ 0
  aligned : addr % pageSize = 0
  bounded : addr + pageSize < addressRange
  out : holds addr

/-- What a page reference says about its page. -/
structure PageSound (heap : Kheap Kernel) (pr addr kind : Nat) (free : List Nat) : Prop where
  known : kind < nsizes
  named : heap.pageaddrAndBlocktype pr = addr + kind
  count : heap.nfree pr = free.length
  linked : Linked 0 (heap.freeLink pr) none free
  nodup : free.Nodup
  within : free ⊆ blocks addr kind

section

variable {holds : Nat → Prop} {heap after : Kheap Kernel} {pr addr kind : Nat} {free : List Nat}

section

variable (sound : PageSound heap pr addr kind free)

include sound

theorem PageSound.pageaddr (area : Area holds addr) : heap.prPageaddr pr = addr := by
  have aligned := area.aligned
  have known := sound.known
  unfold Kheap.prPageaddr
  rw [sound.named]
  unfold pageSize at *
  unfold nsizes at known
  omega

theorem PageSound.blocktype (area : Area holds addr) : heap.prBlocktype pr = kind := by
  have aligned := area.aligned
  have known := sound.known
  unfold Kheap.prBlocktype
  rw [sound.named]
  unfold pageSize at *
  unfold nsizes at known
  omega

/-- A free list has at most as many blocks as the page. -/
theorem PageSound.length_le : free.length ≤ pageSize / sizes kind := by
  rw [← blocks_length addr kind]
  exact (sound.nodup.subperm sound.within).length_le

/-- With as many free blocks as the page has, all are free. -/
theorem PageSound.all_free
    (full : free.length = pageSize / sizes kind) (block : x ∈ blocks addr kind) : x ∈ free := by
  have subperm := sound.nodup.subperm sound.within
  rw [← blocks_length addr kind] at full
  exact (subperm.perm_of_length_le full.ge).mem_iff.mpr block

end

theorem PageSound.offset_of_cons {rest : List Nat} (sound : PageSound heap pr addr kind (x :: rest))
    (area : Area holds addr) :
    heap.freelistOffset pr = x - addr ∧ addr ≤ x ∧ x < addr + pageSize := by
  obtain ⟨first, real, _⟩ := sound.linked
  obtain ⟨low, high, _⟩ := (mem_blocks addr x sound.known).mp (sound.within List.mem_cons_self)
  simp only [Kheap.freeLink, sound.pageaddr area] at first
  split at first
  · exact absurd first.symm real
  · omega

theorem PageSound.offset_of_nil (sound : PageSound heap pr addr kind []) (area : Area holds addr) :
    heap.freelistOffset pr = invalidOffset := by
  have ended : heap.freeLink pr none = 0 := sound.linked
  simp only [Kheap.freeLink, sound.pageaddr area] at ended
  by_contra valid
  rw [if_neg valid] at ended
  have real := area.real
  omega

/-- What a page reference says depends on three of its fields and on the free blocks. -/
theorem PageSound.frame (sound : PageSound heap pr addr kind free)
    (fields : ∀ offset < pagerefSize, 8 ≤ offset → after.memory (pr + offset) = heap.memory (pr + offset))
    (links : ∀ x ∈ free, after.memory x = heap.memory x) : PageSound after pr addr kind free := by
  have name : after.pageaddrAndBlocktype pr = heap.pageaddrAndBlocktype pr :=
    fields 8 (by decide) (by decide)
  have offset : after.freelistOffset pr = heap.freelistOffset pr := fields 12 (by decide) (by decide)
  have count : after.nfree pr = heap.nfree pr := fields 14 (by decide) (by decide)
  have first : after.freeLink pr none = heap.freeLink pr none := by
    simp [Kheap.freeLink, Kheap.prPageaddr, name, offset]
  exact { sound with
    named := name.trans sound.named
    count := count.trans sound.count
    linked := sound.linked.redirect first links }

end

/-- The page references in the order of the list of all pages, and for each its page, the
type of its blocks and those that are free. -/
structure Book where
  refs : List Nat
  addr : Nat → Nat
  kind : Nat → Nat
  free : Nat → List Nat

/-- The page references that are on a list. -/
def Book.onList (book : Book) : Listing → List Nat
  | .samesize blktype => book.refs.filter (fun pr => book.kind pr = blktype)
  | .all => book.refs

/-- A block is allocated. -/
def Book.Live (book : Book) (x : Nat) : Prop :=
  ∃ pr ∈ book.refs, x ∈ blocks (book.addr pr) (book.kind pr) ∧ x ∉ book.free pr

/-- The lists that there are. -/
def Listing.Real : Listing → Prop
  | .samesize blktype => blktype < nsizes
  | .all => True

theorem Book.on_list_subset (book : Book) (listing : Listing) : book.onList listing ⊆ book.refs := by
  cases listing with
  | samesize blktype => exact List.filter_subset_self _
  | all => exact List.Subset.refl _

/-- The page references of a book are those in use, and the pages of the allocator lie
apart from each other. -/
structure Placed (out : Kernel → Nat → Prop) (heap : Kheap Kernel) (book : Book) : Prop where
  roots : RootsSound out heap
  inuse : ∀ pr, heap.InUse pr ↔ pr ∈ book.refs
  nodup : book.refs.Nodup
  area : ∀ pr ∈ book.refs, Area (out heap.kernel) (book.addr pr)
  addrs : ∀ pr ∈ book.refs, ∀ other ∈ book.refs, book.addr pr = book.addr other → pr = other
  apart : ∀ whichroot < numPagerefpages, ∀ pr ∈ book.refs,
    book.addr pr ≠ (heap.kheaproots whichroot).page

/-- The heap spells out a book. -/
structure Kept (out : Kernel → Nat → Prop) (heap : Kheap Kernel) (book : Book) : Prop
    extends Placed out heap book where
  lists : ∀ listing : Listing, listing.Real → Linked 0 (heap.link listing) none (book.onList listing)
  page : ∀ pr ∈ book.refs, PageSound heap pr (book.addr pr) (book.kind pr) (book.free pr)

section

variable {heap after : Kheap Kernel} {book : Book}

section

variable (placed : Placed out heap book) (member : pr ∈ book.refs)
  (other_member : other ∈ book.refs)

include placed member other_member

/-- The fields of a page reference are not on a page of blocks. -/
theorem Placed.field_apart {a : Nat} (inside : offset < pagerefSize) (low : book.addr other ≤ a)
    (high : a < book.addr other + pageSize) : pr + offset ≠ a := by
  obtain ⟨place, _, whichroot, below, _, page⟩ :=
    placed.roots.in_use_place ((placed.inuse pr).mpr member)
  have different := placed.apart whichroot below other other_member
  have aligned := (placed.area other other_member).aligned
  unfold pageSize at *
  unfold pagerefSize at place inside
  omega

/-- The fields of different page references are different. -/
theorem Placed.fields_apart {other_offset : Nat} (different : pr ≠ other)
    (inside : offset < pagerefSize) (other_inside : other_offset < pagerefSize) :
    pr + offset ≠ other + other_offset := by
  have place := (placed.roots.in_use_place ((placed.inuse pr).mpr member)).1
  have other_place := (placed.roots.in_use_place ((placed.inuse other).mpr other_member)).1
  unfold pagerefSize at place other_place inside other_inside
  omega

theorem Placed.pages_apart (different : pr ≠ other) :
    book.addr pr + pageSize ≤ book.addr other ∨ book.addr other + pageSize ≤ book.addr pr := by
  have addresses : book.addr pr ≠ book.addr other :=
    fun same => different (placed.addrs pr member other other_member same)
  have aligned := (placed.area pr member).aligned
  have other_aligned := (placed.area other other_member).aligned
  unfold pageSize at *
  omega

end

/-- There are only so many page references on a list. -/
theorem Placed.on_list_length (placed : Placed out heap book) (listing : Listing) :
    (book.onList listing).length ≤ totalPagerefs := by
  have all := heap.in_use_length placed.nodup (fun pr member => (placed.inuse pr).mpr member)
  cases listing with
  | samesize blktype => exact (List.length_filter_le _ _).trans all
  | all => exact all

/-- Where things are depends on the roots and on the pages that are handed out. -/
theorem Placed.same (placed : Placed out heap book) (kheaproots : after.kheaproots = heap.kheaproots)
    (held : ∀ p, out heap.kernel p → out after.kernel p) : Placed out after book where
  roots :=
    { root := by
        intro whichroot below
        have sound := placed.roots.root whichroot below
        rw [kheaproots]
        exact { sound with out := fun real => held _ (sound.out real) }
      apart := by
        rw [kheaproots]
        exact placed.roots.apart }
  inuse := by
    intro pr
    rw [← placed.inuse pr]
    unfold Kheap.InUse
    rw [kheaproots]
  nodup := placed.nodup
  area := by
    intro pr member
    have area := placed.area pr member
    exact { area with out := held _ area.out }
  addrs := placed.addrs
  apart := by
    rw [kheaproots]
    exact placed.apart

/-- A heap that differs in what the page allocator knows only. -/
theorem Kept.with_kernel (kept : Kept out heap book) {kernel : Kernel}
    (held : ∀ p, out heap.kernel p → out kernel p) : Kept out { heap with kernel := kernel } book where
  toPlaced := kept.toPlaced.same rfl held
  lists := kept.lists
  page := fun pr member => (kept.page pr member).frame (fun _ _ _ => rfl) (fun _ _ => rfl)

theorem Kept.page_of_block (kept : Kept out heap book) (member : pr ∈ book.refs)
    (other_member : other ∈ book.refs) (block : x ∈ blocks (book.addr pr) (book.kind pr))
    (other_block : x ∈ blocks (book.addr other) (book.kind other)) : pr = other := by
  by_contra different
  have apart := kept.toPlaced.pages_apart member other_member different
  obtain ⟨low, high, _⟩ := (mem_blocks _ x (kept.page pr member).known).mp block
  obtain ⟨other_low, other_high, _⟩ :=
    (mem_blocks _ x (kept.page other other_member).known).mp other_block
  omega

theorem Kept.free_on_page (kept : Kept out heap book) (member : pr ∈ book.refs)
    (free : x ∈ book.free pr) : book.addr pr ≤ x ∧ x < book.addr pr + pageSize := by
  have sound := kept.page pr member
  obtain ⟨low, high, _⟩ := (mem_blocks _ x sound.known).mp (sound.within free)
  exact ⟨low, high⟩

theorem link_eq {listing : Listing} {guy : Option Nat} (sizebases : after.sizebases = heap.sizebases)
    (allbase : after.allbase = heap.allbase)
    (memory : ∀ pr, guy = some pr → ∀ offset, offset = 0 ∨ offset = 4 →
      after.memory (pr + offset) = heap.memory (pr + offset)) :
    after.link listing guy = heap.link listing guy := by
  cases listing with
  | samesize blktype =>
    cases guy with
    | none => exact congrFun sizebases blktype
    | some pr => exact memory pr rfl 0 (Or.inl rfl)
  | all =>
    cases guy with
    | none => exact allbase
    | some pr => exact memory pr rfl 4 (Or.inr rfl)

/-- The heap changed in the page of a page reference and in its free list and count. -/
structure OnPage (heap : Kheap Kernel) (pr addr : Nat) (after : Kheap Kernel) : Prop where
  sizebases : after.sizebases = heap.sizebases
  allbase : after.allbase = heap.allbase
  kheaproots : after.kheaproots = heap.kheaproots
  kernel : after.kernel = heap.kernel
  memory : ∀ a, a ≠ pr + 12 → a ≠ pr + 14 → ¬ (addr ≤ a ∧ a < addr + pageSize) →
    after.memory a = heap.memory a

/-- A change of one page leaves the other page references alone, and the links of its own. -/
theorem Placed.fields_untouched (placed : Placed out heap book) (member : pr ∈ book.refs)
    (changed : OnPage heap pr (book.addr pr) after) (other_member : other ∈ book.refs)
    (inside : offset < pagerefSize) (elsewhere : other ≠ pr ∨ offset < 12) :
    after.memory (other + offset) = heap.memory (other + offset) := by
  have apart : ∀ field, 12 ≤ field → field < pagerefSize → other + offset ≠ pr + field := by
    intro field high field_inside
    by_cases same : other = pr
    · have low := elsewhere.resolve_left (fun different => different same)
      omega
    · exact placed.fields_apart other_member member same inside field_inside
  refine changed.memory _ (apart 12 (by decide) (by decide)) (apart 14 (by decide) (by decide)) ?_
  rintro ⟨low, high⟩
  exact placed.field_apart other_member member inside low high rfl

/-- A change of one page keeps the book but for the free blocks of that page. -/
theorem Kept.change_page (kept : Kept out heap book) (member : pr ∈ book.refs)
    (changed : OnPage heap pr (book.addr pr) after) {free : List Nat}
    (sound : PageSound after pr (book.addr pr) (book.kind pr) free) :
    Kept out after { book with free := update book.free pr free } := by
  have placed := kept.toPlaced
  have moved : Placed out after book := placed.same changed.kheaproots
    (fun _ held => changed.kernel ▸ held)
  refine ⟨{ moved with }, ?_, ?_⟩
  · intro listing real
    refine (kept.lists listing real).redirect ?_ ?_
    · exact link_eq changed.sizebases changed.allbase nofun
    · intro other on_list
      refine link_eq changed.sizebases changed.allbase (fun ref same offset which => ?_)
      cases same
      refine placed.fields_untouched member changed (book.on_list_subset listing on_list) ?_
        (Or.inr (by omega))
      unfold pagerefSize
      omega
  · intro other other_member
    show PageSound after other _ _ (update book.free pr free other)
    by_cases same : other = pr
    · rw [same, update_self]
      exact sound
    rw [update_of_ne same]
    refine (kept.page other other_member).frame ?_ ?_
    · intro offset inside _
      exact placed.fields_untouched member changed other_member inside (Or.inl same)
    · intro x x_free
      obtain ⟨low, high⟩ := kept.free_on_page other_member x_free
      have field : ∀ offset < pagerefSize, x ≠ pr + offset := fun offset inside place =>
        placed.field_apart member other_member inside low high place.symm
      refine changed.memory x (field 12 (by decide)) (field 14 (by decide)) ?_
      rintro ⟨page_low, page_high⟩
      have apart := placed.pages_apart other_member member same
      omega

end

end Os161.Kmalloc
