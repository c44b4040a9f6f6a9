import Os161.Kern.Uio

/-!
# Bitmaps

A bitmap is a number of bits and the bytes that hold them. Memory past the last
byte belongs to somebody else, but reading it there returns something, and
`bitmap_isset` does not check its argument; so the bytes are given for every
index, and only those below the size are the bitmap's own.
-/
namespace Os161.Kern

open Function

/-- `struct bitmap`, with whatever memory follows the array. -/
structure Bitmap where
  nbits : Nat
  v : Nat → Byte

/-- `DIVROUNDUP(nbits, BITS_PER_WORD)`, where the sum has 32 bits. -/
def bitmapWords (nbits : Nat) : Nat := (nbits + 7) % 2 ^ 32 / 8

/-- The mask of `bitmap_translate`. -/
def bitMask (index : Nat) : Byte := 1#8 <<< (index % 8)

section

variable (bitmap : Bitmap)

def bitmapIsset (index : Nat) : Bool :=
  decide (bitmap.v (index / 8) &&& bitMask index ≠ 0)

/-- The bitmap with one bit set. -/
def Bitmap.set (index : Nat) : Bitmap :=
  { bitmap with v := update bitmap.v (index / 8) (bitmap.v (index / 8) ||| bitMask index) }

/-- The bitmap with one bit cleared. -/
def Bitmap.clear (index : Nat) : Bitmap :=
  { bitmap with
    v := update bitmap.v (index / 8) (bitmap.v (index / 8) &&& ~~~ bitMask index) }

/-- `bitmap_create`. The array is cleared, and the bits of its last byte that are
past the size are set. -/
def bitmapCreate (memory : Nat → Byte) (nbits : Nat) : Except Panic Bitmap :=
  let words := bitmapWords nbits
  let zeroed := fun index => if index < words then 0 else memory index
  if nbits / 8 < words then
    let overbits := nbits - (words - 1) * 8
    if nbits / 8 = words - 1 ∧ 0 < overbits ∧ overbits < 8 then
      .ok ⟨nbits, update zeroed (words - 1)
        ((List.range' overbits (8 - overbits)).foldl (fun byte bit => byte ||| bitMask bit) 0)⟩
    else .error .assertion
  else .ok ⟨nbits, zeroed⟩

/-- `bitmap_alloc`: the first byte that is not all ones, and the first bit in it
that is clear. Nothing stands for `ENOSPC`. -/
def bitmapAlloc : Except Panic (Option (Nat × Bitmap)) :=
  match (List.range (bitmapWords bitmap.nbits)).find? (fun ix => bitmap.v ix ≠ 0xff) with
  | none => .ok none
  | some ix =>
    match (List.range 8).find? (fun offset => bitmap.v ix &&& bitMask offset = 0) with
    | none => .error .assertion
    | some offset =>
      let index := ix * 8 + offset
      if index < bitmap.nbits then .ok (some (index, bitmap.set index)) else .error .assertion

def bitmapMark (index : Nat) : Except Panic Bitmap :=
  if index < bitmap.nbits then
    if bitmapIsset bitmap index then .error .assertion else .ok (bitmap.set index)
  else .error .assertion

def bitmapUnmark (index : Nat) : Except Panic Bitmap :=
  if index < bitmap.nbits then
    if bitmapIsset bitmap index then .ok (bitmap.clear index) else .error .assertion
  else .error .assertion

/-- The mask of an index has the one bit set that the index has in its byte. -/
theorem bit_mask_bit (index offset : Nat) :
    (bitMask index).getLsbD offset = decide (offset = index % 8) := by
  unfold bitMask
  grind

/-- The test of the source reads that bit. -/
theorem and_bit_mask (byte : Byte) (index : Nat) :
    decide (byte &&& bitMask index ≠ 0) = byte.getLsbD (index % 8) := by
  unfold bitMask
  rw [← BitVec.twoPow_eq, BitVec.and_twoPow]
  have positive : BitVec.twoPow 8 (index % 8) ≠ 0#8 := by
    have small : index % 8 < 8 := Nat.mod_lt _ (by decide)
    generalize index % 8 = offset at small
    revert offset
    decide
  cases byte.getLsbD (index % 8) <;> simp [positive]

theorem bitmap_isset_eq (index : Nat) :
    bitmapIsset bitmap index = (bitmap.v (index / 8)).getLsbD (index % 8) :=
  and_bit_mask _ _

/-- Setting an index changes that index and no other. -/
theorem isset_set (index other : Nat) :
    bitmapIsset (bitmap.set index) other = (decide (other = index) || bitmapIsset bitmap other) := by
  simp only [bitmap_isset_eq, Bitmap.set, update_apply]
  by_cases byte : other / 8 = index / 8
  · have same : other = index ↔ other % 8 = index % 8 := by omega
    rw [if_pos byte, BitVec.getLsbD_or, bit_mask_bit, byte, Bool.or_comm]
    simp [same]
  · have different : other ≠ index := fun same => byte (by rw [same])
    simp [byte, different]

/-- Clearing an index changes that index and no other. -/
theorem isset_clear (index other : Nat) : bitmapIsset (bitmap.clear index) other =
      (!decide (other = index) && bitmapIsset bitmap other) := by
  have small : other % 8 < 8 := Nat.mod_lt _ (by decide)
  simp only [bitmap_isset_eq, Bitmap.clear, update_apply]
  by_cases byte : other / 8 = index / 8
  · have same : other = index ↔ other % 8 = index % 8 := by omega
    rw [if_pos byte, BitVec.getLsbD_and, BitVec.getLsbD_not, bit_mask_bit, byte, Bool.and_comm]
    simp [same, small]
  · have different : other ≠ index := fun same => byte (by rw [same])
    simp [byte, different]

/-- A bitmap of whole bytes is created without leftover bits. -/
theorem bitmap_create_bytes (memory : Nat → Byte) (nbits : Nat) (aligned : nbits % 8 = 0)
    (unsigned : nbits < 2 ^ 32) :
    bitmapCreate memory nbits =
      .ok ⟨nbits, fun index => if index < nbits / 8 then 0 else memory index⟩ := by
  have words : bitmapWords nbits = nbits / 8 := by
    unfold bitmapWords
    omega
  unfold bitmapCreate
  simp [words]

/-- A byte that is not all ones has a clear bit, which the inner loop finds. -/
theorem exists_clear_bit {byte : Byte} (notAll : byte ≠ 0xff) :
    ∃ offset, offset < 8 ∧ byte &&& bitMask offset = 0 := by
  by_contra full
  push Not at full
  apply notAll
  apply BitVec.eq_of_getLsbD_eq
  intro offset small
  have isset := full offset small
  rw [← decide_eq_true_iff (p := byte &&& bitMask offset ≠ 0), and_bit_mask,
    Nat.mod_eq_of_lt small] at isset
  rw [isset]
  clear isset
  revert offset
  decide

/-- In a byte of all ones, which the search passes over, every bit is set. -/
theorem isset_of_full {index : Nat} (full : bitmap.v (index / 8) = 0xff) :
    bitmapIsset bitmap index = true := by
  rw [bitmap_isset_eq, full]
  have small : index % 8 < 8 := Nat.mod_lt _ (by decide)
  generalize index % 8 = offset at small
  revert offset
  decide

/-- Allocation sets the first bit that is clear, if the bits past the size are set. -/
theorem bitmap_alloc_first (unwrapped : bitmap.nbits + 7 < 2 ^ 32)
    (padded : ∀ index, bitmap.nbits ≤ index → index < bitmapWords bitmap.nbits * 8 →
      bitmapIsset bitmap index = true) :
    bitmapAlloc bitmap = .ok (((List.range bitmap.nbits).find? fun index =>
      !bitmapIsset bitmap index).map fun index => (index, bitmap.set index)) := by
  have words : bitmapWords bitmap.nbits = (bitmap.nbits + 7) / 8 := by
    unfold bitmapWords
    omega
  unfold bitmapAlloc
  cases search : (List.range (bitmapWords bitmap.nbits)).find? (fun ix => bitmap.v ix ≠ 0xff) with
  | none =>
    rw [List.find?_range_eq_none.mpr fun index below => ?_]
    · rfl
    · have full := List.find?_range_eq_none.mp search (index / 8) (by omega)
      simpa using isset_of_full bitmap (by simpa using full)
  | some ix =>
    obtain ⟨open_byte, within, earlier⟩ := List.find?_range_eq_some.mp search
    rw [List.mem_range] at within
    obtain ⟨clear, small, unset⟩ := exists_clear_bit (of_decide_eq_true open_byte)
    cases bit : (List.range 8).find? (fun offset => bitmap.v ix &&& bitMask offset = 0) with
    | none =>
      have none_clear := List.find?_range_eq_none.mp bit clear small
      simp [unset] at none_clear
    | some offset =>
      obtain ⟨found, below, lower⟩ := List.find?_range_eq_some.mp bit
      rw [List.mem_range] at below
      have isset (other : Nat) (short : other < 8) : bitmapIsset bitmap (ix * 8 + other) =
          decide (bitmap.v ix &&& bitMask other ≠ 0) := by
        rw [bitmap_isset_eq, and_bit_mask, show (ix * 8 + other) / 8 = ix by omega,
          show (ix * 8 + other) % 8 = other % 8 by omega]
      have unset : bitmapIsset bitmap (ix * 8 + offset) = false := by
        rw [isset offset below, decide_eq_false_iff_not, not_not]
        exact of_decide_eq_true found
      have inside : ix * 8 + offset < bitmap.nbits := by
        by_contra past
        rw [padded _ (by omega) (by omega)] at unset
        cases unset
      simp only [bit]
      rw [if_pos inside, List.find?_range_eq_some.mpr ⟨by rw [unset]; rfl, List.mem_range.mpr inside,
        fun index before => ?_⟩]
      · rfl
      · rw [Bool.not_not]
        by_cases same : index / 8 = ix
        · rw [show index = ix * 8 + index % 8 by omega, isset _ (by omega)]
          simpa using lower (index % 8) (by omega)
        · exact isset_of_full bitmap (by simpa using earlier (index / 8) (by omega))

/-- Allocation returns a bit of the bitmap that was clear, having set it, or finds
every bit set. It never fails an assertion when the size is a number of bytes. -/
theorem bitmap_alloc_cases (aligned : bitmap.nbits % 8 = 0) (unsigned : bitmap.nbits < 2 ^ 32) :
    (bitmapAlloc bitmap = .ok none ∧
        ∀ index, index < bitmap.nbits → bitmapIsset bitmap index = true) ∨
      ∃ index, bitmapAlloc bitmap = .ok (some (index, bitmap.set index)) ∧
        index < bitmap.nbits ∧ bitmapIsset bitmap index = false := by
  have first := bitmap_alloc_first bitmap (by omega) fun index past below => by
    unfold bitmapWords at below
    omega
  cases search : (List.range bitmap.nbits).find? fun index => !bitmapIsset bitmap index with
  | none =>
    rw [search] at first
    exact Or.inl ⟨first, fun index below => by
      simpa using List.find?_range_eq_none.mp search index below⟩
  | some index =>
    rw [search] at first
    obtain ⟨clear, within, _⟩ := List.find?_range_eq_some.mp search
    exact Or.inr ⟨index, first, List.mem_range.mp within, by simpa using clear⟩

theorem bitmap_unmark_isset {index : Nat} (below : index < bitmap.nbits)
    (isset : bitmapIsset bitmap index = true) :
    bitmapUnmark bitmap index = .ok (bitmap.clear index) := by
  unfold bitmapUnmark
  rw [if_pos below, if_pos isset]

end

end Os161.Kern
