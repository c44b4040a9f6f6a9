import Os161.Malloc.Blocks
import Mathlib.Data.List.Chain

/-!
# Allocating

What `malloc` does to a heap whose headers spell out a list of blocks: the first-fit
search walks over the whole list, and the block it finds, or the space that `sbrk` adds
at the top, is split and put to use.
-/
namespace Os161.Malloc

open Os161.Library Os161.Library.Layout Os161.Library.Program
open Ensures (bind_done)

variable {Kernel : Type}

/-- No two neighbours are both free. -/
def Apart (blocks : List Block) : Prop :=
  blocks.IsChain (fun lower upper => lower.used = true ∨ upper.used = true)

/-- A heap between calls: no two neighbours are free, and the last block is not an empty
one. -/
structure Tidy (heap : Heap Kernel) (blocks : List Block) : Prop extends Shaped heap blocks where
  apart : Apart blocks
  topped : blocks ≠ [] → 2 * mblocksize ≤ lastLen 0 blocks

/-- A block in use, of a given length, at an address. -/
def Used (start : Nat) (blocks : List Block) (a len : Nat) : Prop :=
  ∃ block, Placed Block.len start blocks a block ∧ block.used = true ∧ block.len = len

theorem used_append (start a len : Nat) (first second : List Block) :
    Used start (first ++ second) a len ↔
      Used start first a len ∨ Used (start + extent Block.len first) second a len := by
  unfold Used
  simp [placed_append, or_and_right, exists_or]

theorem used_cons (start a len : Nat) (block : Block) (rest : List Block) :
    Used start (block :: rest) a len ↔
      (block.used = true ∧ a = start ∧ len = block.len) ∨ Used (start + block.len) rest a len := by
  constructor
  · rintro ⟨placed, ⟨rfl, rfl⟩ | later, used, rfl⟩
    · exact Or.inl ⟨used, rfl, rfl⟩
    · exact Or.inr ⟨placed, later, used, rfl⟩
  · rintro (⟨used, rfl, rfl⟩ | ⟨placed, later, used, rfl⟩)
    · exact ⟨block, Or.inl ⟨rfl, rfl⟩, used, rfl⟩
    · exact ⟨placed, Or.inr later, used, rfl⟩

theorem used_nil (start a len : Nat) : ¬ Used start [] a len := by
  rintro ⟨_, placed, _⟩
  exact placed

/-- The header the search has seen last. -/
def lastHeader (i : Nat) (mh : Option Nat) : List Block → Option Nat
  | [] => mh
  | block :: rest => lastHeader (i + block.len) (some i) rest

theorem last_header_append (i : Nat) (mh : Option Nat) (blocks : List Block) (block : Block) :
    lastHeader i mh (blocks ++ [block]) = some (i + extent Block.len blocks) := by
  induction blocks generalizing i mh with
  | nil => rfl
  | cons first rest ih =>
    simp [lastHeader, ih, extent, Nat.add_assoc]

/-- How a search over a list of blocks ends. -/
def SearchEnds (size i : Nat) (mh : Option Nat) (prev : Nat) (blocks : List Block) : Search → Prop
  | .found a => ∃ before block after, blocks = before ++ block :: after ∧
      a = i + extent Block.len before ∧ block.used = false ∧ size + mblocksize ≤ block.len
  | .ended j last right => j = i + extent Block.len blocks ∧ last = lastHeader i mh blocks ∧
      right = mMkfield (lastLen prev blocks) ∧
      ∀ block ∈ blocks, block.used = true ∨ block.len < size + mblocksize

/-- The search loop of `malloc` walks over the blocks. -/
theorem search_ensures (size rounds i : Nat) (mh : Option Nat) (prev : Nat) (blocks : List Block)
    (heap : Heap Kernel) (tiles : Tiles heap.memory i prev blocks heap.heaptop)
    (small : heap.heaptop < sizeRange) (enough : blocks.length < rounds) :
    Succeeds (search size rounds i mh (mMkfield prev)) heap
      (fun ended after => after = heap ∧ SearchEnds size i mh prev blocks ended) := by
  induction blocks generalizing rounds i mh prev with
  | nil =>
    cases rounds with
    | zero => exact absurd enough (Nat.not_lt_zero _)
    | succ rounds =>
      have done : ¬ i < heap.heaptop := by
        rw [show i = heap.heaptop from tiles]
        exact Nat.lt_irrefl _
      refine bind_done (look_done heap) ?_
      rw [if_neg done]
      exact ensures_pure ⟨rfl, rfl, rfl, rfl, nofun⟩
  | cons block rest ih =>
    cases rounds with
    | zero => exact absurd enough (Nat.not_lt_zero _)
    | succ rounds =>
      obtain ⟨header, whole, aligned, later⟩ := tiles
      have above := later.top_eq
      have len_small : block.len < sizeRange := by omega
      have inside : i < heap.heaptop := by
        unfold mblocksize at whole
        omega
      refine bind_done (look_done heap) ?_
      rw [if_pos inside, header]
      refine bind_done (check_passes (ok_header block)) ?_
      refine bind_done (check_passes rfl) ?_
      rw [size_header whole aligned len_small, nextoff_header block aligned len_small,
        Nat.mod_eq_of_lt (show i + block.len < sizeRange by omega)]
      show Ensures False (if block.used = true ∨ block.len - mblocksize < size then
        search size rounds (i + block.len) (some i) (mMkfield block.len) else pure (.found i)) heap _ _
      by_cases unfit : block.used = true ∨ block.len - mblocksize < size
      · rw [if_pos unfit]
        refine (ih rounds (i + block.len) (some i) block.len later
          (by simpa using enough)).on_return ?_
        rintro ended after ⟨rfl, ends⟩
        refine ⟨rfl, ?_⟩
        cases ended with
        | found a =>
          obtain ⟨before, found, behind, rfl, rfl, free, fits⟩ := ends
          exact ⟨block :: before, found, behind, rfl, by simp only [extent]; omega, free, fits⟩
        | ended j last right =>
          obtain ⟨rfl, rfl, rfl, none_fit⟩ := ends
          refine ⟨by simp only [extent]; omega, rfl, rfl, fun other member => ?_⟩
          rcases List.mem_cons.mp member with rfl | member
          · rcases unfit with used | narrow
            · exact Or.inl used
            · exact Or.inr (by omega)
          · exact none_fit other member
      · rw [if_neg unfit]
        obtain ⟨unused, wide⟩ := not_or.mp unfit
        refine ensures_pure ⟨rfl, [], block, rest, rfl, rfl, by simpa using unused, ?_⟩
        omega

variable {heap : Heap Kernel} {before blocks after : List Block} {block : Block} {size : Nat}

theorem mark_edited (used : Bool) (shaped : Shaped heap (before ++ block :: after)) :
    Edited heap (heap.setHeader (heap.behind before) (fun header => { header with mhInuse := used }))
      (before ++ { block with used := used } :: after) := by
  obtain ⟨below, header, whole, aligned, above⟩ := (tiles_append).mp shaped.tiles
  refine ⟨rfl, rfl, rfl, (tiles_append).mpr ⟨below.agree (fun a _ high => ?_), ?_, whole,
    aligned, above.agree (fun a low _ => ?_)⟩, kept_of_changes (fun x changed => Or.inl ?_)⟩
  · exact set_header_of_ne (show a ≠ heap.behind before from Nat.ne_of_lt high)
  · show (heap.setHeader (heap.behind before) _).memory (heap.behind before) = _
    rw [set_header_self]
    show { heap.memory (heap.heapbase + extent Block.len before) with mhInuse := used } = _
    rw [header]
    rfl
  · refine set_header_of_ne ?_
    show a ≠ heap.heapbase + extent Block.len before
    unfold mblocksize at whole
    omega
  · by_cases here : x = heap.behind before
    · exact ⟨before, _, rfl, here⟩
    · exact absurd (set_header_of_ne here) changed

theorem apart_append_cons {before after : List Block} {block : Block} :
    Apart (before ++ block :: after) ↔ Apart before ∧
      (∀ lower ∈ before.getLast?, lower.used = true ∨ block.used = true) ∧ Apart after ∧
      ∀ upper ∈ after.head?, block.used = true ∨ upper.used = true := by
  unfold Apart
  rw [List.isChain_append, List.isChain_cons]
  simp only [List.head?_cons, Option.mem_def, Option.some.injEq, forall_eq']
  constructor
  · rintro ⟨below, ⟨upper, above⟩, lower⟩
    exact ⟨below, lower, above, upper⟩
  · rintro ⟨below, lower, above, upper⟩
    exact ⟨below, ⟨upper, above⟩, lower⟩

/-- The last length does not depend on what is below the list. -/
theorem last_len_below (some_block : blocks ≠ []) {prev : Nat} (other : Nat) :
    lastLen prev blocks = lastLen other blocks := by
  cases blocks with
  | nil => exact absurd rfl some_block
  | cons block rest => rfl

/-- A block that is split keeps its lower part, and has a free upper one or none. -/
theorem split_shape (block : Block) (size : Nat) (fits : size + mblocksize ≤ block.len) :
    ∃ len rest, (∀ used, Block.split size { block with used := used } =
        { len := len, used := used } :: rest) ∧
      size + mblocksize ≤ len ∧ ((rest = [] ∧ len = block.len) ∨
        ∃ left, rest = [{ len := left, used := false }] ∧ 2 * mblocksize ≤ left ∧
          len + left = block.len) := by
  by_cases narrow : block.len < size + 3 * mblocksize
  · exact ⟨block.len, [], fun used => if_pos narrow, fits, Or.inl ⟨rfl, rfl⟩⟩
  · refine ⟨size + mblocksize, [{ len := block.len - (size + mblocksize), used := false }],
      fun used => if_neg narrow, Nat.le_refl _, Or.inr ⟨block.len - (size + mblocksize), rfl, ?_, ?_⟩⟩
    · omega
    · omega

/-- The contents of the blocks that were in use are the same. -/
def Unwritten (before after : Heap Kernel) (blocks : List Block) : Prop :=
  ∀ a len x, Used before.heapbase blocks a len → a + mblocksize ≤ x → x < a + len →
    after.memory x = before.memory x

/-- Blocks that are in use on both sides of an edit are not written to. -/
theorem Edited.unwritten {before after : Heap Kernel} {others : List Block}
    (edited : Edited before after others)
    (still : ∀ a len, Used before.heapbase blocks a len → Used before.heapbase others a len) :
    Unwritten before after blocks := by
  intro a len x used low high
  obtain ⟨block, placed, in_use, rfl⟩ := still a len used
  exact edited.kept a block x placed in_use low high

theorem Unwritten.trans {first second third : Heap Kernel} {others : List Block}
    (unwritten : Unwritten first second blocks) (more : Unwritten second third others)
    (base : second.heapbase = first.heapbase)
    (still : ∀ a len, Used first.heapbase blocks a len → Used first.heapbase others a len) :
    Unwritten first third blocks := by
  intro a len x used low high
  have later := still a len used
  rw [← base] at later
  rw [more a len x later low high, unwritten a len x used low high]

/-- What an allocation that succeeds has done: there is a new block in use, large enough,
and nothing else has happened to the blocks in use. -/
structure Allocated (before after : Heap Kernel) (blocks others : List Block) (size p : Nat) : Prop where
  heapbase : after.heapbase = before.heapbase
  tidy : Tidy after others
  unwritten : Unwritten before after blocks
  placed : ∃ a len, p = a + mblocksize ∧ size + mblocksize ≤ len ∧
    (∀ other, ¬ Used before.heapbase blocks a other) ∧
    ∀ q l, Used before.heapbase others q l ↔ Used before.heapbase blocks q l ∨ (q = a ∧ l = len)

theorem free_not_used {memory : Nat → Mheader} {start top : Nat}
    (tiles : Tiles memory start 0 (before ++ block :: after) top) (free : block.used = false)
    (len : Nat) :
    ¬ Used start (before ++ block :: after) (start + extent Block.len before) len := by
  rintro ⟨other, placed, used, _⟩
  have here : Placed Block.len start (before ++ block :: after) (start + extent Block.len before) block :=
    (placed_iff _ _ _ _ _).mpr ⟨before, after, rfl, rfl⟩
  have whole := (tiles.placed placed).2.1
  have here_whole := (tiles.placed here).2.1
  unfold mblocksize at whole here_whole
  rcases placed_disjoint Block.len placed here with ⟨_, rfl⟩ | apart | apart
  · rw [used] at free
    cases free
  · omega
  · omega

/-- A block in use, with at most one free block between it and one in use. -/
theorem apart_carved (rest : List Block) (len : Nat) (below : Apart before) (above : Apart after)
    (left : rest = [] ∨ ∃ other, rest = [{ len := other, used := false }] ∧
      ∀ upper ∈ after.head?, upper.used = true) :
    Apart (before ++ { len := len, used := true } :: (rest ++ after)) := by
  refine (apart_append_cons).mpr ⟨below, fun _ _ => Or.inr rfl, ?_, fun _ _ => Or.inl rfl⟩
  rcases left with rfl | ⟨other, rfl, upper⟩
  · exact above
  · exact List.isChain_cons.mpr ⟨fun next member => Or.inr (upper next member), above⟩

section

variable (sbrk : Nat → Kernel → Option Nat × Kernel)

/-- The block that was found is split and put to use. -/
theorem finish_found_ensures (tidy : Tidy heap (before ++ block :: after))
    (free : block.used = false) (aligned : size % mblocksize = 0)
    (fits : size + mblocksize ≤ block.len) :
    Succeeds (finish sbrk size (.found (heap.behind before))) heap
      (fun p result => result.heaptop = heap.heaptop ∧ result.kernel = heap.kernel ∧
        ∃ others, Allocated heap result (before ++ block :: after) others size p) := by
  obtain ⟨len, rest, pieces, large, left⟩ := split_shape block size fits
  have split : block.split size = { len := len, used := false } :: rest := by
    rw [← pieces false, ← free]
  have rest_free (start q l : Nat) : ¬ Used start rest q l := by
    rcases left with ⟨rfl, _⟩ | ⟨other, rfl, _⟩
    · exact used_nil start q l
    · rw [used_cons]
      rintro (⟨used, _⟩ | later)
      · cases used
      · exact used_nil _ _ _ later
  have extents : len + extent Block.len rest = block.len := by
    rcases left with ⟨rfl, same⟩ | ⟨other, rfl, _, same⟩
    · exact same
    · exact same
  refine Ensures.bind (split_ensures heap tidy.toShaped aligned fits) ?_
  intro _ middle edited
  rw [split] at edited
  have shaped : Shaped middle (before ++ { len := len, used := false } :: (rest ++ after)) :=
    edited.shaped tidy.toShaped
  have behind : heap.behind before = middle.behind before := by
    unfold Heap.behind
    rw [edited.heapbase]
  rw [behind]
  refine bind_done rfl ?_
  have marked := mark_edited true shaped
  have now_used (q l : Nat) : Used heap.heapbase
      (before ++ { len := len, used := true } :: (rest ++ after)) q l ↔
      Used heap.heapbase (before ++ block :: after) q l ∨ (q = heap.behind before ∧ l = len) := by
    simp only [used_append, used_cons, rest_free, free, Bool.false_eq_true, false_and, false_or,
      true_and]
    rw [Nat.add_assoc _ len, extents]
    tauto
  have middle_used (q l : Nat) : Used heap.heapbase
      (before ++ { len := len, used := false } :: (rest ++ after)) q l ↔
      Used heap.heapbase (before ++ block :: after) q l := by
    simp only [used_append, used_cons, rest_free, free, Bool.false_eq_true, false_and, false_or]
    rw [Nat.add_assoc _ len, extents]
  obtain ⟨below, _, above, upper⟩ := (apart_append_cons).mp tidy.apart
  have in_use : ∀ next ∈ after.head?, next.used = true := by
    intro next member
    rcases upper next member with used | used
    · rw [free] at used
      cases used
    · exact used
  have marked_shaped := marked.shaped shaped
  refine ensures_pure ⟨marked.heaptop.trans edited.heaptop, marked.kernel.trans edited.kernel,
    before ++ { len := len, used := true } :: (rest ++ after), ?_⟩
  refine ⟨marked.heapbase.trans edited.heapbase, ⟨marked_shaped, ?_, ?_⟩, ?_, ?_⟩
  · refine apart_carved rest len below above ?_
    rcases left with ⟨rfl, _⟩ | ⟨other, rfl, _⟩
    · exact Or.inl rfl
    · exact Or.inr ⟨other, rfl, in_use⟩
  · intro _
    have topped := tidy.topped (by simp)
    simp only [lastLen, last_len_append] at topped ⊢
    by_cases last : after = []
    · subst last
      rcases left with ⟨rfl, same⟩ | ⟨other, rfl, wide, _⟩
      · simpa only [lastLen, same] using topped
      · exact wide
    · rw [last_len_below last block.len]
      exact topped
  · have first : Unwritten heap middle (before ++ block :: after) :=
      edited.unwritten (fun a l used => (middle_used a l).mpr used)
    have second : Unwritten middle _ (before ++ { len := len, used := false } :: (rest ++ after)) :=
      marked.unwritten (fun a l used => by
        rw [edited.heapbase] at used ⊢
        exact (now_used a l).mpr (Or.inl ((middle_used a l).mp used)))
    exact first.trans second edited.heapbase (fun a l used => (middle_used a l).mpr used)
  · refine ⟨heap.behind before, len, ?_, large, ?_, now_used⟩
    · rw [← behind]
      refine Nat.mod_eq_of_lt ?_
      obtain ⟨_, whole, _, within, _⟩ := tidy.toShaped.block
      have small := tidy.small
      omega
    · exact free_not_used tidy.tiles free

/-- The system call extends the heap contiguously or fails: what it returns is the break
it had, and the break moves by what was asked for and stays an address. -/
structure Contiguous (brk : Kernel → Nat) : Prop where
  granted : ∀ size kernel x after, sbrk size kernel = (some x, after) →
    x = brk kernel ∧ brk after = brk kernel + size ∧ brk after < sizeRange
  refused : ∀ size kernel after, sbrk size kernel = (none, after) → brk after = brk kernel

variable {sbrk} {brk : Kernel → Nat}

/-- `__malloc_sbrk` gets the memory at the top of the heap, or nothing. -/
theorem malloc_sbrk_ensures (contiguous : Contiguous sbrk brk) (size : Nat)
    (at_top : brk heap.kernel = heap.heaptop) :
    Succeeds (mallocSbrk sbrk size) heap
      (fun p after => brk after.kernel = after.heaptop ∧ after.heapbase = heap.heapbase ∧
        after.memory = heap.memory ∧ ((p = none ∧ after.heaptop = heap.heaptop) ∨
          (p = some heap.heaptop ∧ after.heaptop = heap.heaptop + size ∧ after.heaptop < sizeRange))) := by
  have called : callSbrk sbrk size heap = .done (sbrk size heap.kernel).1
      { heap with kernel := (sbrk size heap.kernel).2 } := rfl
  refine bind_done called ?_
  rcases answered : sbrk size heap.kernel with ⟨_ | x, kernel⟩
  · have stays := contiguous.refused size heap.kernel kernel answered
    exact ensures_pure ⟨stays.trans at_top, rfl, rfl, Or.inl ⟨rfl, rfl⟩⟩
  obtain ⟨rfl, moved, small⟩ := contiguous.granted size heap.kernel x kernel answered
  rw [at_top] at moved
  refine bind_done rfl ?_
  refine bind_done (check_passes at_top) ?_
  refine bind_done rfl ?_
  have no_wrap : (heap.heaptop + size) % sizeRange = heap.heaptop + size :=
    Nat.mod_eq_of_lt (by omega)
  refine ensures_pure ⟨?_, rfl, rfl, Or.inr ⟨?_, no_wrap, ?_⟩⟩
  · show brk kernel = (heap.heaptop + size) % sizeRange
    rw [no_wrap, moved]
  · rw [at_top]
  · show (heap.heaptop + size) % sizeRange < sizeRange
    omega

/-- The heap with its last blocks replaced by a larger one, up to a new top. -/
theorem grown_shaped {grown : Heap Kernel} {last : List Block}
    (shaped : Shaped heap (before ++ last)) (base : grown.heapbase = heap.heapbase)
    (top : grown.heaptop = heap.behind before + block.len) (small : grown.heaptop < sizeRange)
    (whole : mblocksize ≤ block.len) (aligned : block.len % mblocksize = 0)
    (header : grown.memory (heap.behind before) = block.header (lastLen 0 before))
    (elsewhere : ∀ a, a ≠ heap.behind before → grown.memory a = heap.memory a) :
    Shaped grown (before ++ [block]) := by
  obtain ⟨below, _⟩ := (tiles_append).mp shaped.tiles
  refine ⟨base ▸ shaped.positive, base ▸ shaped.start, small, ?_⟩
  rw [base]
  refine (tiles_append).mpr ⟨below.agree (fun a _ high => ?_), header, whole, aligned, top.symm⟩
  exact elsewhere a (show a ≠ heap.behind before from Nat.ne_of_lt high)

/-- A block in use at the new top is split. The blocks it has replaced were free. -/
theorem place_ensures (heap grown : Heap Kernel) (before last : List Block) (len size : Nat)
    (tidy : Tidy heap (before ++ last)) (idle : ∀ start q l, ¬ Used start last q l)
    (base : grown.heapbase = heap.heapbase)
    (elsewhere : ∀ a, a ≠ heap.behind before → grown.memory a = heap.memory a)
    (shaped : Shaped grown (before ++ [{ len := len, used := true }]))
    (large : 2 * mblocksize ≤ len) (aligned : size % mblocksize = 0) (fits : size + mblocksize ≤ len) :
    Succeeds (do
        mallocSplit (heap.behind before) size
        pure (mData (heap.behind before)) : HeapProgram Kernel Nat) grown
      (fun p result => result.heaptop = grown.heaptop ∧ result.kernel = grown.kernel ∧
        ∃ others, Allocated heap result (before ++ last) others size p) := by
  obtain ⟨lower, rest, pieces, lower_large, left⟩ := split_shape { len := len, used := true } size fits
  have behind : heap.behind before = grown.behind before := by
    unfold Heap.behind
    rw [base]
  have was_used (q l : Nat) : Used heap.heapbase (before ++ last) q l ↔ Used heap.heapbase before q l := by
    rw [used_append]
    exact or_iff_left (idle _ q l)
  have now_used (q l : Nat) : Used heap.heapbase
      (before ++ { len := lower, used := true } :: (rest ++ [])) q l ↔
      Used heap.heapbase (before ++ last) q l ∨ (q = heap.behind before ∧ l = lower) := by
    rw [was_used, used_append, used_cons, List.append_nil]
    rcases left with ⟨rfl, _⟩ | ⟨other, rfl, _⟩
    · simp only [used_nil, or_false, true_and]
      rfl
    · simp only [used_cons, used_nil, or_false, true_and, Bool.false_eq_true, false_and]
      rfl
  rw [behind]
  refine Ensures.bind (split_ensures grown shaped aligned fits) ?_
  intro _ result edited
  rw [show Block.split size { len := len, used := true } = { len := lower, used := true } :: rest from
    pieces true] at edited
  have result_shaped := edited.shaped shaped
  refine ensures_pure ⟨edited.heaptop, edited.kernel,
    before ++ { len := lower, used := true } :: (rest ++ []), edited.heapbase.trans base,
    ⟨result_shaped, ?_, ?_⟩, ?_, ?_⟩
  · refine apart_carved rest lower tidy.apart.left_of_append List.isChain_nil ?_
    rcases left with ⟨rfl, _⟩ | ⟨other, rfl, _⟩
    · exact Or.inl rfl
    · exact Or.inr ⟨other, rfl, nofun⟩
  · intro _
    rw [last_len_append]
    rcases left with ⟨rfl, same⟩ | ⟨other, rfl, wide, _⟩
    · show 2 * mblocksize ≤ lower
      rw [same]
      exact large
    · exact wide
  · intro a l x used low high
    have used := (was_used a l).mp used
    have kept : Unwritten grown result before :=
      edited.unwritten (fun q l used => (used_append _ _ _ _ _).mpr (Or.inl used))
    rw [kept a l x (base ▸ used) low high]
    refine elsewhere x ?_
    obtain ⟨block, placed, _, rfl⟩ := used
    have bounds := placed.bounds
    show x ≠ heap.heapbase + extent Block.len before
    omega
  · refine ⟨heap.behind before, lower, ?_, lower_large, ?_, now_used⟩
    · rw [← behind]
      refine Nat.mod_eq_of_lt ?_
      obtain ⟨_, _, _, within, _⟩ := shaped.block
      have small := shaped.small
      omega
    · intro other used
      obtain ⟨block, placed, _, _⟩ := (was_used _ _).mp used
      obtain ⟨_, whole, _⟩ := ((tiles_append).mp tidy.tiles).1.placed placed
      have bounds := placed.bounds
      unfold Heap.behind mblocksize at *
      omega

/-- What `malloc` has done: nothing but asking the kernel, or an allocation. -/
def Answered (brk : Kernel → Nat) (heap : Heap Kernel) (blocks : List Block) (size p : Nat)
    (result : Heap Kernel) : Prop :=
  brk result.kernel = result.heaptop ∧
    ((p = 0 ∧ result.heapbase = heap.heapbase ∧ result.heaptop = heap.heaptop ∧
        result.memory = heap.memory) ∨
      ∃ others, Allocated heap result blocks others size p)

/-- The space asked for is a whole number of pages and is enough. -/
theorem page_rounding {space : Nat} (small : space + pageSize - 1 < sizeRange) :
    space ≤ pageSize * ((space + pageSize - 1) % sizeRange / pageSize) ∧
      (0 < space → pageSize ≤ pageSize * ((space + pageSize - 1) % sizeRange / pageSize)) ∧
      pageSize * ((space + pageSize - 1) % sizeRange / pageSize) % mblocksize = 0 := by
  unfold pageSize sizeRange mblocksize at *
  omega

/-- What can be extended at the top is the last block, if that is free. -/
theorem last_free (shaped : Shaped heap blocks) :
    ((lastHeader heap.heapbase none blocks).filter (fun mh => !(heap.memory mh).mhInuse) = none) ∨
      ∃ before block, blocks = before ++ [block] ∧ block.used = false ∧
        (lastHeader heap.heapbase none blocks).filter (fun mh => !(heap.memory mh).mhInuse) =
          some (heap.behind before) := by
  rcases List.eq_nil_or_concat' blocks with rfl | ⟨before, block, rfl⟩
  · exact Or.inl rfl
  have header := shaped.block.1
  have filtered : (lastHeader heap.heapbase none (before ++ [block])).filter
      (fun mh => !(heap.memory mh).mhInuse) =
      if (!block.used) = true then some (heap.behind before) else none := by
    rw [last_header_append]
    show (some (heap.behind before)).filter _ = _
    rw [Option.filter_some, header]
    rfl
  rw [filtered]
  cases used : block.used with
  | true => exact Or.inl rfl
  | false => exact Or.inr ⟨before, block, rfl, used, rfl⟩

/-- New space at the top is put to use, together with a free block below it. -/
theorem use_space_ensures {middle : Heap Kernel} {last : List Block} (len : Nat)
    (update : Mheader → Mheader) (tidy : Tidy heap (before ++ last))
    (idle : ∀ start q l, ¬ Used start last q l) (same_base : middle.heapbase = heap.heapbase)
    (same_memory : middle.memory = heap.memory) (at_top : brk middle.kernel = middle.heaptop)
    (top : middle.heaptop = heap.behind before + len) (small : middle.heaptop < sizeRange)
    (header : update (heap.memory (heap.behind before)) =
      ({ len := len, used := true } : Block).header (lastLen 0 before))
    (large : 2 * mblocksize ≤ len) (len_aligned : len % mblocksize = 0)
    (aligned : size % mblocksize = 0) (fits : size + mblocksize ≤ len) :
    Succeeds (do
        change (fun heap' => heap'.setHeader (heap.behind before) update)
        mallocSplit (heap.behind before) size
        pure (mData (heap.behind before)) : HeapProgram Kernel Nat) middle
      (Answered brk heap (before ++ last) size) := by
  refine bind_done rfl ?_
  have elsewhere : ∀ a, a ≠ heap.behind before →
      (middle.setHeader (heap.behind before) update).memory a = heap.memory a := by
    intro a other
    rw [set_header_of_ne other, same_memory]
  have shaped : Shaped (middle.setHeader (heap.behind before) update)
      (before ++ [{ len := len, used := true }]) := by
    refine grown_shaped tidy.toShaped same_base top small ?_ len_aligned ?_ elsewhere
    · show mblocksize ≤ len
      omega
    · rw [set_header_self, same_memory, header]
  refine (place_ensures heap (middle.setHeader (heap.behind before) update) before last len size tidy idle
    same_base elsewhere shaped large aligned fits).on_return ?_
  rintro p result ⟨same_top, same_kernel, allocated⟩
  refine ⟨?_, Or.inr allocated⟩
  rw [same_kernel, same_top]
  exact at_top

/-- When no block fits, the heap is extended: behind its last block, or by what the last block lacks
when that one is free. -/
theorem finish_ended_ensures (contiguous : Contiguous sbrk brk) (tidy : Tidy heap blocks)
    (at_top : brk heap.kernel = heap.heaptop) (aligned : size % mblocksize = 0)
    (small : mblocksize + size + pageSize - 1 < sizeRange)
    (none_fit : ∀ block ∈ blocks, block.used = true ∨ block.len < size + mblocksize) :
    Succeeds (finish sbrk size (.ended heap.heaptop (lastHeader heap.heapbase none blocks)
        (mMkfield (lastLen 0 blocks)))) heap
      (Answered brk heap blocks size) := by
  refine bind_done (look_done heap) ?_
  refine bind_done (check_passes rfl) ?_
  rcases last_free tidy.toShaped with top_is | ⟨before, block, rfl, free, top_is⟩
  · rw [top_is]
    refine bind_done (check_passes nofun) ?_
    have space : (mblocksize + size) % sizeRange = mblocksize + size := Nat.mod_eq_of_lt (by
      unfold pageSize at small
      omega)
    simp only [space]
    obtain ⟨enough, page, more_aligned⟩ := page_rounding small
    generalize pageSize * ((mblocksize + size + pageSize - 1) % sizeRange / pageSize) = more at *
    refine Ensures.bind (malloc_sbrk_ensures contiguous more at_top) ?_
    rintro _ middle ⟨brk_is, same_base, same_memory, ⟨rfl, same_top⟩ | ⟨rfl, top_moved, top_small⟩⟩
    · exact ensures_pure ⟨brk_is, Or.inl ⟨rfl, same_base, same_top, same_memory⟩⟩
    · have behind : heap.heaptop = heap.behind blocks := tidy.tiles.top_eq
      rw [← List.append_nil blocks] at tidy
      have used := use_space_ensures more
        (fun _ => ({ len := more, used := true } : Block).header (lastLen 0 blocks)) tidy
        used_nil same_base same_memory brk_is (behind ▸ top_moved) top_small
        rfl (by unfold mblocksize pageSize at *; omega) more_aligned aligned (by omega)
      rw [List.append_nil, ← behind] at used
      exact used
  · rw [top_is]
    obtain ⟨header, whole, len_aligned, within, len_small⟩ := tidy.toShaped.block
    have narrow : block.len < size + mblocksize := by
      rcases none_fit block (by simp) with used | narrow
      · rw [free] at used
        cases used
      · exact narrow
    have size_is : mSize (heap.memory (heap.behind before)) = block.len - mblocksize := by
      rw [header, size_header whole len_aligned len_small]
    refine bind_done (check_passes (fun mh member => ?_)) ?_
    · cases member
      omega
    simp only [size_is]
    have space_small : size - (block.len - mblocksize) + pageSize - 1 < sizeRange := by
      omega
    obtain ⟨enough, page, more_aligned⟩ := page_rounding space_small
    generalize pageSize * ((size - (block.len - mblocksize) + pageSize - 1) % sizeRange / pageSize) =
      more at *
    refine Ensures.bind (malloc_sbrk_ensures contiguous more at_top) ?_
    rintro _ middle ⟨brk_is, same_base, same_memory, ⟨rfl, same_top⟩ | ⟨rfl, top_moved, top_small⟩⟩
    · exact ensures_pure ⟨brk_is, Or.inl ⟨rfl, same_base, same_top, same_memory⟩⟩
    · have behind : heap.heaptop = heap.behind before + block.len := by
        rw [tidy.tiles.top_eq, extent_append]
        show _ = heap.heapbase + extent Block.len before + block.len
        simp only [extent]
        omega
      refine use_space_ensures (block.len + more) _ tidy ?_ same_base
        same_memory brk_is (by omega) top_small ?_ (by unfold mblocksize pageSize at *; omega)
        (by unfold mblocksize at *; omega) aligned (by omega)
      · intro start q l
        rw [used_cons, free]
        rintro (⟨used, _⟩ | later)
        · cases used
        · exact used_nil _ _ _ later
      · rw [header]
        show Mheader.mk _ _ _ (mMkfield ((mNextoff (block.header (lastLen 0 before)) + more) % sizeRange))
          true _ = _
        rw [nextoff_header block len_aligned len_small, Nat.mod_eq_of_lt (by omega)]
        rfl

/-- `malloc` on a heap that is set up, for a size whose rounding does not wrap. -/
theorem malloc_ensures (contiguous : Contiguous sbrk brk) (tidy : Tidy heap blocks)
    (at_top : brk heap.kernel = heap.heaptop)
    (small : mblocksize + (size + mblocksize - 1) / mblocksize * mblocksize + pageSize - 1 < sizeRange) :
    Succeeds (malloc sbrk size) heap
      (Answered brk heap blocks ((size + mblocksize - 1) / mblocksize * mblocksize)) := by
  have positive := tidy.positive
  have above := tidy.tiles.top_eq
  have nonzero : ¬ heap.heapbase = 0 := by omega
  have skipped : (onlyIf (heap.heapbase = 0) (mallocInit sbrk) : HeapProgram Kernel PUnit) heap =
      .done PUnit.unit heap := by
    unfold onlyIf
    rw [if_neg nonzero]
    rfl
  refine bind_done rfl ?_
  refine bind_done skipped ?_
  refine bind_done (look_done heap) ?_
  refine bind_done (check_passes ⟨nonzero, by omega, by omega⟩) ?_
  rw [show (size + mblocksize - 1) % sizeRange = size + mblocksize - 1 from Nat.mod_eq_of_lt (by
    unfold mblocksize pageSize sizeRange at *
    omega)]
  generalize rounded_is : (size + mblocksize - 1) / mblocksize * mblocksize = rounded at *
  have aligned : rounded % mblocksize = 0 := by
    rw [← rounded_is]
    exact Nat.mul_mod_left _ _
  have enough : blocks.length < (heap.heaptop - heap.heapbase) / mblocksize + 1 :=
    Nat.lt_succ_of_le tidy.tiles.length_le
  refine Ensures.bind (search_ensures rounded _ heap.heapbase none 0 blocks heap tidy.tiles tidy.small
    enough) ?_
  rintro ended _ ⟨rfl, ends⟩
  cases ended with
  | found a =>
    obtain ⟨before, block, after, rfl, rfl, free, fits⟩ := ends
    refine (finish_found_ensures sbrk tidy free aligned fits).on_return ?_
    rintro p result ⟨same_top, same_kernel, allocated⟩
    refine ⟨?_, Or.inr allocated⟩
    rw [same_kernel, same_top]
    exact at_top
  | ended j last right =>
    obtain ⟨rfl, rfl, rfl, none_fit⟩ := ends
    rw [← above]
    exact finish_ended_ensures contiguous tidy at_top aligned small none_fit

end

end Os161.Malloc
