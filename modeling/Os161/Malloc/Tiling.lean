import Os161.Library.Layout
import Os161.Malloc.Heap

/-!
# The blocks of the heap

What the headers in memory spell out: a list of blocks, each with its length and whether
it is in use, laid end to end. The header of a block has the length of the block and of
the one below it.
-/
namespace Os161.Malloc

open Os161.Library Os161.Library.Layout

/-- A block with its header. -/
structure Block where
  len : Nat
  used : Bool

/-- The header of a block above one of a given length. -/
def Block.header (prev : Nat) (block : Block) : Mheader where
  mhPrevblock := mMkfield prev
  mhPad := 0#1
  mhMagic1 := mmagic
  mhNextblock := mMkfield block.len
  mhInuse := block.used
  mhMagic2 := mmagic

/-- The headers in memory tile a range from an address to a top: each block starts with
its header, has a whole number of cells, and ends where the next one starts; and the
header of the next one has its length. -/
def Tiles (memory : Nat → Mheader) : Nat → Nat → List Block → Nat → Prop
  | i, _, [], top => i = top
  | i, prev, block :: rest, top =>
    memory i = block.header prev ∧ mblocksize ≤ block.len ∧ block.len % mblocksize = 0 ∧
      Tiles memory (i + block.len) block.len rest top

/-- The length of the last block, or of the one below the list. -/
def lastLen (prev : Nat) : List Block → Nat
  | [] => prev
  | block :: rest => lastLen block.len rest

theorem last_len_append (prev : Nat) (before after : List Block) :
    lastLen prev (before ++ after) = lastLen (lastLen prev before) after := by
  induction before generalizing prev with
  | nil => rfl
  | cons block rest ih => exact ih block.len

variable {memory : Nat → Mheader} {blocks : List Block} {prev top i : Nat} {block : Block}

theorem Tiles.top_eq (tiles : Tiles memory i prev blocks top) :
    top = i + extent Block.len blocks := by
  induction blocks generalizing i prev with
  | nil => exact tiles.symm
  | cons block rest ih =>
    rw [ih tiles.2.2.2]
    simp only [extent]
    omega

/-- A heap can be cut between two blocks. -/
theorem tiles_append {memory : Nat → Mheader} {i prev top : Nat} {before after : List Block} :
    Tiles memory i prev (before ++ after) top ↔
      Tiles memory i prev before (i + extent Block.len before) ∧
        Tiles memory (i + extent Block.len before) (lastLen prev before) after top := by
  induction before generalizing i prev with
  | nil => simp [Tiles, extent, lastLen]
  | cons block rest ih =>
    simp [Tiles, extent, lastLen, ih, and_assoc, Nat.add_assoc]

section

variable (tiles : Tiles memory i prev blocks top)

include tiles

/-- Memory that is the same in the range is tiled the same way. -/
theorem Tiles.agree {other : Nat → Mheader}
    (same : ∀ a, i ≤ a → a < top → other a = memory a) : Tiles other i prev blocks top := by
  induction blocks generalizing i prev with
  | nil => exact tiles
  | cons block rest ih =>
    have above := tiles.2.2.2.top_eq
    obtain ⟨header, whole, aligned, later⟩ := tiles
    refine ⟨?_, whole, aligned, ih later (fun a low high => same a (by omega) high)⟩
    rw [same i (Nat.le_refl i) (by unfold mblocksize at whole; omega), header]

theorem Tiles.same_headers {other : Nat → Mheader}
    (same : ∀ a block, Placed Block.len i blocks a block → other a = memory a) :
    Tiles other i prev blocks top := by
  induction blocks generalizing i prev with
  | nil => exact tiles
  | cons block rest ih =>
    obtain ⟨header, whole, aligned, later⟩ := tiles
    refine ⟨?_, whole, aligned, ih later
      (fun a placed is_placed => same a placed (Or.inr is_placed))⟩
    rw [same i block (Or.inl ⟨rfl, rfl⟩), header]

theorem Tiles.placed {a : Nat} (placed : Placed Block.len i blocks a block) :
    (∃ below, memory a = block.header below) ∧ mblocksize ≤ block.len ∧
      block.len % mblocksize = 0 := by
  induction blocks generalizing i prev with
  | nil => exact placed.elim
  | cons first rest ih =>
    obtain ⟨header, whole, aligned, later⟩ := tiles
    rcases placed with ⟨rfl, rfl⟩ | placed
    · exact ⟨⟨prev, header⟩, whole, aligned⟩
    · exact ih later placed

theorem Tiles.aligned {a : Nat}
    (start : i % mblocksize = 0) (placed : Placed Block.len i blocks a block) :
    a % mblocksize = 0 := by
  induction blocks generalizing i prev with
  | nil => exact placed.elim
  | cons first rest ih =>
    obtain ⟨header, whole, aligned, later⟩ := tiles
    rcases placed with ⟨rfl, rfl⟩ | placed
    · exact start
    · exact ih later (by unfold mblocksize at *; omega) placed

/-- A heap has no more blocks than headers fit into it. -/
theorem Tiles.length_le : blocks.length ≤ (top - i) / mblocksize := by
  induction blocks generalizing i prev with
  | nil => simp
  | cons block rest ih =>
    obtain ⟨_, whole, _, later⟩ := tiles
    have above := later.top_eq
    have fewer := ih later
    simp only [List.length_cons]
    unfold mblocksize at *
    omega

end

/-- A length that fits into the field comes back out of it. -/
theorem mkfield_offset {off : Nat} (aligned : off % mblocksize = 0) (small : off < sizeRange) :
    (mMkfield off).toNat * mblocksize = off := by
  unfold mMkfield
  rw [BitVec.toNat_ofNat]
  unfold mblocksize sizeRange at *
  omega

theorem nextoff_header (block : Block) {prev : Nat} (aligned : block.len % mblocksize = 0)
    (small : block.len < sizeRange) : mNextoff (block.header prev) = block.len :=
  mkfield_offset aligned small

theorem prevoff_header (block : Block) (aligned : prev % mblocksize = 0)
    (small : prev < sizeRange) :
    mPrevoff (block.header prev) = prev :=
  mkfield_offset aligned small

theorem size_header {prev : Nat} (whole : mblocksize ≤ block.len)
    (aligned : block.len % mblocksize = 0) (small : block.len < sizeRange) :
    mSize (block.header prev) = block.len - mblocksize := by
  unfold mSize
  rw [nextoff_header block aligned small]
  unfold mblocksize sizeRange at *
  omega

theorem ok_header (block : Block) {prev : Nat} : mOk (block.header prev) := ⟨rfl, rfl⟩

end Os161.Malloc
