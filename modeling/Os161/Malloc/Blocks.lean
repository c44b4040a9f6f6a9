import Os161.Malloc.Tiling

/-!
# What the operations do to the blocks

The parts of `malloc` and `free` as edits of the list of blocks: splitting a block,
walking over the blocks, and merging two neighbours. An edit writes headers and free
blocks only.
-/
namespace Os161.Malloc

open Os161.Library Os161.Library.Layout Os161.Library.Program
open Ensures (bind_done)

variable {Kernel : Type}

/-- A heap that is set up and whose headers spell out a list of blocks. -/
structure Shaped (heap : Heap Kernel) (blocks : List Block) : Prop where
  positive : 0 < heap.heapbase
  start : heap.heapbase % mblocksize = 0
  small : heap.heaptop < sizeRange
  tiles : Tiles heap.memory heap.heapbase 0 blocks heap.heaptop

variable {before after blocks : List Block} {lower upper : Block}

section

variable (heap : Heap Kernel)

/-- Where the block behind a list of blocks is. -/
def Heap.behind (blocks : List Block) : Nat :=
  heap.heapbase + extent Block.len blocks

theorem Heap.behind_append (before blocks : List Block) :
    heap.behind (before ++ blocks) = heap.behind before + extent Block.len blocks := by
  unfold Heap.behind
  rw [extent_append, Nat.add_assoc]

/-- The contents of the blocks in use are the same. -/
def Kept (before after : Heap Kernel) (blocks : List Block) : Prop :=
  ∀ a block x, Placed Block.len before.heapbase blocks a block → block.used = true →
    a + mblocksize ≤ x → x < a + block.len → after.memory x = before.memory x

/-- Memory has been edited and spells out other blocks. -/
structure Edited (before after : Heap Kernel) (blocks : List Block) : Prop where
  heapbase : after.heapbase = before.heapbase
  heaptop : after.heaptop = before.heaptop
  kernel : after.kernel = before.kernel
  tiles : Tiles after.memory before.heapbase 0 blocks before.heaptop
  kept : Kept before after blocks

theorem Edited.shaped {before after : Heap Kernel} {others : List Block}
    (edited : Edited before after others) (shaped : Shaped before blocks) :
    Shaped after others where
  positive := by
    rw [edited.heapbase]
    exact shaped.positive
  start := by
    rw [edited.heapbase]
    exact shaped.start
  small := by
    rw [edited.heaptop]
    exact shaped.small
  tiles := by
    rw [edited.heapbase, edited.heaptop]
    exact edited.tiles

/-- A place where the list can be cut. -/
def Boundary (start : Nat) (blocks : List Block) (x : Nat) : Prop :=
  ∃ below above, blocks = below ++ above ∧ x = start + extent Block.len below

theorem Boundary.not_inside {start a x : Nat} {block : Block} (boundary : Boundary start blocks x)
    (placed : Placed Block.len start blocks a block) (low : a + mblocksize ≤ x)
    (high : x < a + block.len) : False := by
  obtain ⟨below, above, rfl, rfl⟩ := boundary
  unfold mblocksize at low
  rcases (placed_append _ _ _ _ _ _).mp placed with lower | upper
  · have bounds := lower.bounds
    omega
  · have bounds := upper.bounds
    omega

/-- Writing to boundaries and to free blocks leaves the contents of the others alone. -/
theorem kept_of_changes {before after : Heap Kernel}
    (only : ∀ x, after.memory x ≠ before.memory x → Boundary before.heapbase blocks x ∨
      ∃ a block, Placed Block.len before.heapbase blocks a block ∧ block.used = false ∧ a ≤ x ∧
        x < a + block.len) : Kept before after blocks := by
  intro a block x placed used low high
  by_contra changed
  rcases only x changed with boundary | ⟨other, free, free_placed, unused, above, below⟩
  · exact boundary.not_inside placed low high
  · rcases placed_disjoint Block.len placed free_placed with ⟨_, rfl⟩ | apart | apart
    · rw [used] at unused
      cases unused
    · omega
    · omega

theorem Shaped.block {heap : Heap Kernel} {block : Block}
    (shaped : Shaped heap (before ++ block :: after)) :
    heap.memory (heap.behind before) = block.header (lastLen 0 before) ∧
      mblocksize ≤ block.len ∧ block.len % mblocksize = 0 ∧
      heap.behind before + block.len ≤ heap.heaptop ∧ block.len < sizeRange := by
  obtain ⟨_, at_block⟩ := (tiles_append).mp shaped.tiles
  have above := at_block.2.2.2.top_eq
  have small := shaped.small
  refine ⟨at_block.1, at_block.2.1, at_block.2.2.1, ?_, ?_⟩
  · show heap.heapbase + extent Block.len before + block.len ≤ heap.heaptop
    omega
  · omega

theorem next_of_header {heap : Heap Kernel} {mh prev : Nat} {block : Block}
    (header : heap.memory mh = block.header prev) (aligned : block.len % mblocksize = 0)
    (small : mh + block.len < sizeRange) : heap.mNext mh = mh + block.len := by
  unfold Heap.mNext
  rw [header, nextoff_header block aligned (by omega)]
  exact Nat.mod_eq_of_lt small

theorem Shaped.next {heap : Heap Kernel} {block : Block}
    (shaped : Shaped heap (before ++ block :: after)) :
    heap.mNext (heap.behind before) = heap.behind before + block.len := by
  obtain ⟨header, _, aligned, within, _⟩ := shaped.block
  exact next_of_header header aligned (Nat.lt_of_le_of_lt within shaped.small)

/-- The block in two, if what is left is worth it. -/
def Block.split (size : Nat) (block : Block) : List Block :=
  if block.len < size + 3 * mblocksize then [block]
  else [{ block with len := size + mblocksize },
    { len := block.len - (size + mblocksize), used := false }]

theorem look_done {State : Type} {Stop Error : Type} (state : State) :
    inspect id state = (.done state state : Outcome Stop Error State State) :=
  rfl

/-- Tell the block at an address how long the one below it is, unless that is the top. -/
def Heap.relink (mh : Nat) (prev : BitVec 29) : Heap Kernel :=
  if mh ≠ heap.heaptop then heap.setHeader mh (fun header => { header with mhPrevblock := prev })
  else heap

theorem relink_elsewhere {mh a : Nat} {prev : BitVec 29} (elsewhere : a ≠ mh) :
    (heap.relink mh prev).memory a = heap.memory a := by
  unfold Heap.relink
  by_cases top : mh ≠ heap.heaptop
  · rw [if_pos top, set_header_of_ne elsewhere]
  · rw [if_neg top]

theorem relink_keeps (mh : Nat) (prev : BitVec 29) :
    (heap.relink mh prev).heapbase = heap.heapbase ∧ (heap.relink mh prev).heaptop = heap.heaptop ∧
      (heap.relink mh prev).kernel = heap.kernel := by
  unfold Heap.relink
  split
  · exact ⟨rfl, rfl, rfl⟩
  · exact ⟨rfl, rfl, rfl⟩

/-- The rest of a tiling above a block whose length has changed. -/
theorem relink_tiles {mh other : Nat} (prev : Nat) (blocks : List Block)
    (tiles : Tiles heap.memory mh prev blocks heap.heaptop) :
    Tiles (heap.relink mh (mMkfield other)).memory mh other blocks heap.heaptop := by
  cases blocks with
  | nil => exact tiles
  | cons block rest =>
    obtain ⟨header, whole, aligned, later⟩ := tiles
    have above := later.top_eq
    have below_top : mh ≠ heap.heaptop := by
      unfold mblocksize at whole
      omega
    refine ⟨?_, whole, aligned, later.agree (fun a low _ => ?_)⟩
    · unfold Heap.relink
      rw [if_pos below_top, set_header_self, header]
      rfl
    · refine relink_elsewhere heap ?_
      unfold mblocksize at whole
      omega

theorem relink_done {mh top : Nat} {prev : Heap Kernel → BitVec 29} (same : top = heap.heaptop) :
    (onlyIf (mh ≠ top) (change (fun heap => heap.setHeader mh (fun header =>
      { header with mhPrevblock := prev heap }))) : HeapProgram Kernel PUnit) heap =
      .done PUnit.unit (heap.relink mh (prev heap)) := by
  subst same
  unfold Heap.relink onlyIf
  by_cases below : mh ≠ heap.heaptop
  · rw [if_pos below, if_pos below]
    rfl
  · rw [if_neg below, if_neg below]
    rfl

/-- Heaps that agree on a cell and on the one that is relinked. -/
theorem relink_agrees {other : Heap Kernel} {a : Nat} {mh : Nat} {prev : BitVec 29}
    (top : other.heaptop = heap.heaptop) (cell : other.memory a = heap.memory a) :
    (other.relink mh prev).memory a = (heap.relink mh prev).memory a := by
  obtain rfl | here := eq_or_ne a mh
  · unfold Heap.relink
    rw [top]
    by_cases below : a ≠ heap.heaptop
    · rw [if_pos below, if_pos below, set_header_self, set_header_self, cell]
    · rw [if_neg below, if_neg below, cell]
  · rw [relink_elsewhere _ here, relink_elsewhere _ here, cell]

/-- Replacing some neighbours by others that fill the same space, and relinking the block
above them. -/
theorem replaced_tiles {edited : Heap Kernel} (before old new after : List Block)
    (tiles : Tiles heap.memory heap.heapbase 0 (before ++ (old ++ after)) heap.heaptop)
    (same_extent : extent Block.len new = extent Block.len old)
    (outside : ∀ a, a < heap.behind before ∨ heap.behind (before ++ old) ≤ a →
      edited.memory a = (heap.relink (heap.behind (before ++ old))
        (mMkfield (lastLen (lastLen 0 before) new))).memory a)
    (inside : Tiles edited.memory (heap.behind before) (lastLen 0 before) new
      (heap.behind (before ++ old))) :
    Tiles edited.memory heap.heapbase 0 (before ++ (new ++ after)) heap.heaptop := by
  have behind := heap.behind_append before old
  obtain ⟨below, rest⟩ := (tiles_append).mp tiles
  obtain ⟨_, above⟩ := (tiles_append).mp rest
  refine (tiles_append).mpr ⟨below.agree (fun a _ high => ?_), ?_⟩
  · have high : a < heap.behind before := high
    rw [outside a (Or.inl high)]
    exact relink_elsewhere _ (by omega)
  · refine (tiles_append).mpr ⟨?_, ?_⟩
    · rw [same_extent]
      rw [behind] at inside
      exact inside
    · rw [same_extent]
      show Tiles edited.memory (heap.behind before + extent Block.len old) _ after heap.heaptop
      rw [← behind]
      refine Tiles.agree (relink_tiles heap (lastLen (lastLen 0 before) old) after ?_)
        (fun a low _ => outside a (Or.inr low))
      rw [behind]
      exact above

/-- Two parts of a block, with their headers. -/
def Heap.divide (mh prev : Nat) (lower upper : Block) : Heap Kernel :=
  ((heap.setHeader mh (fun _ => lower.header prev)).setHeader (mh + lower.len)
    (fun _ => upper.header lower.len)).relink (mh + (lower.len + upper.len)) (mMkfield upper.len)

theorem divide_edited {block : Block} (shaped : Shaped heap (before ++ block :: after))
    (whole : block.len = lower.len + upper.len) (lower_whole : mblocksize ≤ lower.len)
    (lower_aligned : lower.len % mblocksize = 0) (upper_whole : mblocksize ≤ upper.len)
    (upper_aligned : upper.len % mblocksize = 0) :
    Edited heap (heap.divide (heap.behind before) (lastLen 0 before) lower upper)
      (before ++ lower :: upper :: after) := by
  let mh := heap.behind before
  let parts := (heap.setHeader mh (fun _ => lower.header (lastLen 0 before))).setHeader (mh + lower.len)
    (fun _ => upper.header lower.len)
  have parts_elsewhere : ∀ a, a ≠ mh → a ≠ mh + lower.len → parts.memory a = heap.memory a := by
    intro a not_lower not_upper
    show (Heap.setHeader (Heap.setHeader _ _ _) _ _).memory a = _
    rw [set_header_of_ne not_upper, set_header_of_ne not_lower]
  have behind : heap.behind (before ++ [block]) = mh + (lower.len + upper.len) :=
    (heap.behind_append before [block]).trans (congrArg (mh + ·) whole)
  have tiles : Tiles (heap.divide mh (lastLen 0 before) lower upper).memory heap.heapbase 0
      (before ++ ([lower, upper] ++ after)) heap.heaptop := by
    refine replaced_tiles heap before [block] [lower, upper] after shaped.tiles ?_ ?_ ?_
    · simp only [extent]
      omega
    · intro a outside
      rw [behind] at outside ⊢
      unfold mblocksize at *
      exact relink_agrees heap rfl (parts_elsewhere a (by omega) (by omega))
    · refine ⟨?_, lower_whole, lower_aligned, ?_, upper_whole, upper_aligned, ?_⟩
      · show (parts.relink _ _).memory mh = _
        rw [relink_elsewhere _ (by unfold mblocksize at *; omega)]
        show (Heap.setHeader (Heap.setHeader _ _ _) _ _).memory mh = _
        rw [set_header_of_ne (by unfold mblocksize at *; omega), set_header_self]
      · show (parts.relink _ _).memory (mh + lower.len) = _
        rw [relink_elsewhere _ (by unfold mblocksize at *; omega)]
        exact set_header_self _ _ _
      · show mh + lower.len + upper.len = _
        omega
  obtain ⟨same_base, same_top, same_kernel⟩ := relink_keeps parts (mh + (lower.len + upper.len))
    (mMkfield upper.len)
  refine ⟨same_base, same_top, same_kernel, tiles, kept_of_changes (fun x changed => Or.inl ?_)⟩
  by_cases at_lower : x = mh
  · exact ⟨before, _, rfl, at_lower⟩
  by_cases at_upper : x = mh + lower.len
  · exact ⟨before ++ [lower], upper :: after, by simp,
      at_upper.trans (heap.behind_append before [lower]).symm⟩
  · by_cases at_next : x = mh + (lower.len + upper.len)
    · exact ⟨before ++ [lower, upper], after, by simp,
        at_next.trans (heap.behind_append before [lower, upper]).symm⟩
    · exact absurd ((relink_elsewhere parts at_next).trans
        (parts_elsewhere x at_lower at_upper)) changed

/-- What `__malloc_split` computes of the size that is left over. -/
theorem split_rest {heap : Heap Kernel} {block : Block} {size : Nat}
    (shaped : Shaped heap (before ++ block :: after)) (fits : size + mblocksize ≤ block.len) :
    (mSize (heap.memory (heap.behind before)) + sizeRange - size) % sizeRange =
      block.len - (size + mblocksize) := by
  obtain ⟨header, whole, aligned, _, small⟩ := shaped.block
  rw [header, size_header whole aligned small]
  unfold sizeRange at *
  omega

/-- `__malloc_split` divides a block that is large enough, and leaves any other. -/
theorem split_ensures {block : Block} {size : Nat} (shaped : Shaped heap (before ++ block :: after))
    (aligned : size % mblocksize = 0) (fits : size + mblocksize ≤ block.len) :
    Succeeds (mallocSplit (heap.behind before) size) heap
      (fun _ edited => Edited heap edited (before ++ (block.split size ++ after))) := by
  obtain ⟨header, whole, len_aligned, within, len_small⟩ := shaped.block
  have rest := split_rest shaped fits
  refine bind_done (check_passes aligned) ?_
  refine bind_done (look_done heap) ?_
  by_cases narrow : block.len < size + 3 * mblocksize
  · rw [if_pos (by rw [rest]; omega)]
    refine ensures_pure ?_
    unfold Block.split
    rw [if_pos narrow]
    exact ⟨rfl, rfl, rfl, shaped.tiles, fun _ _ _ _ _ _ _ => rfl⟩
  · rw [if_neg (by omega)]
    let mh := heap.behind before
    let lower : Block := { block with len := size + mblocksize }
    let upper : Block := { len := block.len - (size + mblocksize), used := false }
    have lower_aligned : lower.len % mblocksize = 0 := by
      show (size + mblocksize) % mblocksize = 0
      unfold mblocksize at *
      omega
    have upper_whole : mblocksize ≤ upper.len := by
      show mblocksize ≤ block.len - (size + mblocksize)
      omega
    have upper_aligned : upper.len % mblocksize = 0 := by
      show (block.len - (size + mblocksize)) % mblocksize = 0
      unfold mblocksize at *
      omega
    have parts : block.len = lower.len + upper.len := by
      show block.len = size + mblocksize + (block.len - (size + mblocksize))
      omega
    have top_small := shaped.small
    let first := heap.setHeader mh (fun header =>
      { header with mhNextblock := mMkfield (size + mblocksize) })
    have first_is : first = heap.setHeader mh (fun _ => lower.header (lastLen 0 before)) := by
      show Heap.mk _ _ _ _ = Heap.mk _ _ _ _
      rw [header]
      rfl
    have next_is : heap.mNext mh = mh + (lower.len + upper.len) := by
      rw [← parts]
      exact shaped.next
    have new_is : first.mNext mh = mh + lower.len := by
      refine next_of_header (first_is ▸ set_header_self _ _ _) lower_aligned ?_
      omega
    have apart : first.mNext mh ≠ heap.mNext mh := by
      unfold mblocksize at upper_whole
      omega
    refine bind_done rfl ?_
    refine bind_done rfl ?_
    refine bind_done (check_passes apart) ?_
    refine bind_done rfl ?_
    refine ensures_of_done (relink_done _ rfl) ?_
    have split : block.split size = [lower, upper] := if_neg narrow
    rw [split]
    have edited := divide_edited heap shaped parts
      (by show mblocksize ≤ size + mblocksize; omega) lower_aligned upper_whole upper_aligned
    have fields : ({
        mhPrevblock := mMkfield (size + mblocksize)
        mhPad := 0#1
        mhMagic1 := mmagic
        mhNextblock := mMkfield ((mSize (heap.memory mh) + sizeRange - size) % sizeRange)
        mhInuse := false
        mhMagic2 := mmagic } : Mheader) = upper.header lower.len := by
      rw [rest]
      rfl
    show Edited heap (Heap.relink (first.setHeader (first.mNext mh) (fun _ => _)) (heap.mNext mh)
      ((first.setHeader (first.mNext mh) (fun _ => _)).memory (first.mNext mh)).mhNextblock) _
    rw [fields, next_is, new_is, first_is]
    have field : (((heap.setHeader mh (fun _ => lower.header (lastLen 0 before))).setHeader
        (mh + lower.len) (fun _ => upper.header lower.len)).memory (mh + lower.len)).mhNextblock =
        mMkfield upper.len := by
      rw [set_header_self]
      rfl
    rw [field]
    exact edited

/-- Two neighbours, as one block if both are free. -/
def Block.merge (lower upper : Block) : List Block :=
  if lower.used = true ∨ upper.used = true then [lower, upper]
  else [{ len := lower.len + upper.len, used := false }]

/-- A range of cells is wiped. -/
def Heap.wipe (ptr size : Nat) : Heap Kernel :=
  { heap with
    memory := fun address =>
      if ptr ≤ address ∧ address < ptr + size then deadbeef else heap.memory address }

theorem wipe_outside {ptr size a : Nat} (outside : a < ptr ∨ ptr + size ≤ a) :
    (heap.wipe ptr size).memory a = heap.memory a :=
  if_neg (by omega)

/-- One block in place of two, with its header, and the upper header wiped. -/
def Heap.unite (mh prev : Nat) (lower upper : Block) : Heap Kernel :=
  ((heap.setHeader mh (fun _ =>
    ({ len := lower.len + upper.len, used := false } : Block).header prev)).relink
      (mh + (lower.len + upper.len)) (mMkfield (lower.len + upper.len))).wipe (mh + lower.len) mblocksize

theorem unite_edited (shaped : Shaped heap (before ++ lower :: upper :: after)) :
    Edited heap (heap.unite (heap.behind before) (lastLen 0 before) lower upper)
      (before ++ ({ len := lower.len + upper.len, used := false } : Block) :: after) := by
  obtain ⟨_, lower_whole, lower_aligned, _⟩ := shaped.block
  obtain ⟨_, at_lower⟩ := (tiles_append).mp shaped.tiles
  obtain ⟨_, _, _, _, upper_whole, upper_aligned, _⟩ := at_lower
  let mh := heap.behind before
  let united : Block := { len := lower.len + upper.len, used := false }
  let first := heap.setHeader mh (fun _ => united.header (lastLen 0 before))
  have behind : heap.behind (before ++ [lower, upper]) = mh + (lower.len + upper.len) :=
    heap.behind_append before [lower, upper]
  have tiles : Tiles (heap.unite mh (lastLen 0 before) lower upper).memory heap.heapbase 0
      (before ++ ([united] ++ after)) heap.heaptop := by
    refine replaced_tiles heap before [lower, upper] [united] after shaped.tiles ?_ ?_ ?_
    · show lower.len + upper.len + 0 = lower.len + (upper.len + 0)
      omega
    · intro a outside
      rw [behind] at outside ⊢
      change a < mh ∨ _ at outside
      have not_wiped : a < mh + lower.len ∨ mh + lower.len + mblocksize ≤ a := by omega
      have not_first : a ≠ mh := by
        unfold mblocksize at lower_whole
        omega
      show ((first.relink _ _).wipe _ _).memory a = _
      rw [wipe_outside _ not_wiped]
      exact relink_agrees heap rfl (set_header_of_ne not_first)
    · rw [behind]
      refine ⟨?_, ?_, ?_, ?_⟩
      · show ((first.relink _ _).wipe _ _).memory mh = _
        unfold mblocksize at lower_whole
        rw [wipe_outside _ (by omega), relink_elsewhere _ (by omega)]
        exact set_header_self _ _ _
      · show mblocksize ≤ lower.len + upper.len
        omega
      · show (lower.len + upper.len) % mblocksize = 0
        unfold mblocksize at *
        omega
      · rfl
  obtain ⟨same_base, same_top, same_kernel⟩ := relink_keeps first (mh + (lower.len + upper.len))
    (mMkfield (lower.len + upper.len))
  refine ⟨same_base, same_top, same_kernel, tiles, kept_of_changes (fun x changed => ?_)⟩
  by_cases within : mh ≤ x ∧ x < mh + united.len
  · refine Or.inr ⟨mh, united, ?_, rfl, within.1, within.2⟩
    exact (placed_iff _ _ _ _ _).mpr ⟨before, after, rfl, rfl⟩
  have outside : x < mh ∨ mh + (lower.len + upper.len) ≤ x := by
    change ¬ (mh ≤ x ∧ x < mh + (lower.len + upper.len)) at within
    omega
  by_cases at_next : x = mh + (lower.len + upper.len)
  · exact Or.inl ⟨before ++ [united], after, by simp; rfl,
      at_next.trans (heap.behind_append before [united]).symm⟩
  · refine absurd ?_ changed
    show ((first.relink _ _).wipe _ _).memory x = _
    unfold mblocksize at *
    rw [wipe_outside _ (by omega), relink_elsewhere _ at_next, set_header_of_ne (by omega)]

/-- `__malloc_trymerge` unites two free neighbours, and leaves any others. -/
theorem trymerge_ensures (shaped : Shaped heap (before ++ lower :: upper :: after)) :
    Succeeds (mallocTrymerge (heap.behind before) (heap.behind before + lower.len)) heap
      (fun _ edited => Edited heap edited (before ++ (lower.merge upper ++ after))) := by
  let mh := heap.behind before
  obtain ⟨header, whole, aligned, within, small⟩ := shaped.block
  have second : Shaped heap ((before ++ [lower]) ++ upper :: after) := by
    rw [List.append_assoc]
    exact shaped
  have behind : heap.behind (before ++ [lower]) = mh + lower.len := heap.behind_append before [lower]
  obtain ⟨upper_header, upper_whole, upper_aligned, upper_within, upper_small⟩ := second.block
  rw [behind] at upper_header upper_within
  rw [last_len_append] at upper_header
  have fields : (heap.memory mh).mhNextblock = (heap.memory (mh + lower.len)).mhPrevblock := by
    rw [upper_header, header]
    rfl
  refine bind_done rfl ?_
  refine bind_done (check_passes fields) ?_
  have inuse : (heap.memory mh).mhInuse = lower.used := by
    rw [header]
    rfl
  have upper_inuse : (heap.memory (mh + lower.len)).mhInuse = upper.used := by
    rw [upper_header]
    rfl
  show Ensures False (if (heap.memory mh).mhInuse = true ∨ (heap.memory (mh + lower.len)).mhInuse = true
    then _ else _) heap _ _
  rw [inuse, upper_inuse]
  unfold Block.merge
  by_cases used : lower.used = true ∨ upper.used = true
  · rw [if_pos used, if_pos used]
    exact ensures_pure ⟨rfl, rfl, rfl, shaped.tiles, fun _ _ _ _ _ _ _ => rfl⟩
  rw [if_neg used, if_neg used]
  refine bind_done rfl ?_
  refine bind_done (relink_done _ rfl) ?_
  refine ensures_change ?_
  have united : (mblocksize + mSize (heap.memory mh) + mblocksize +
      mSize (heap.memory (mh + lower.len))) % sizeRange = lower.len + upper.len := by
    have top_small := shaped.small
    rw [upper_header, header, size_header whole aligned small,
      size_header upper_whole upper_aligned upper_small]
    unfold mblocksize sizeRange at *
    omega
  have next_is : heap.mNext (mh + lower.len) = mh + (lower.len + upper.len) := by
    rw [← behind, second.next, behind, Nat.add_assoc]
  have first_is : heap.setHeader mh (fun header => { header with
      mhNextblock := mMkfield ((mblocksize + mSize (heap.memory mh) + mblocksize +
        mSize (heap.memory (mh + lower.len))) % sizeRange) }) =
      heap.setHeader mh (fun _ => ({ len := lower.len + upper.len, used := false } : Block).header
        (lastLen 0 before)) := by
    have free : lower.used = false := by
      simpa using (not_or.mp used).1
    show Heap.mk _ _ _ _ = Heap.mk _ _ _ _
    rw [united, header]
    show Heap.mk _ _ (Function.update _ _ (Mheader.mk _ _ _ _ lower.used _)) _ = _
    rw [free]
    rfl
  have edited := unite_edited heap shaped
  show Edited heap (Heap.wipe (Heap.relink (heap.setHeader mh (fun _ => _))
    (heap.mNext (mh + lower.len)) ((heap.setHeader mh (fun _ => _)).memory mh).mhNextblock)
    (mh + lower.len) mblocksize) _
  rw [first_is, next_is, set_header_self]
  exact edited

end

end Os161.Malloc
