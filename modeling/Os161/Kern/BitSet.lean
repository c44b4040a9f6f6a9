import Os161.Kern.Bitmap
import Mathlib.Data.Finset.Basic
import Mathlib.Data.List.Find

/-!
# Bitmaps as finite sets

A bitmap stands for the set of the indices whose bits are set. `bitmap_create` sets the bits
of the last byte that are past the size, so that `bitmap_alloc`, which looks at whole bytes,
never comes upon them. The number of bytes is computed with 32 bits: for the seven largest
sizes it comes out as zero, and such a bitmap has no bits to allocate.
-/
namespace Os161.Kern

/-- Calls that change a bitmap. -/
inductive Request
  | alloc
  | mark (index : Nat)
  | unmark (index : Nat)

/-- A call returns the index it has allocated, if any. -/
def Bitmap.perform (bitmap : Bitmap) : Request → Except Panic (Option Nat × Bitmap)
  | .alloc => (bitmapAlloc bitmap).map fun result =>
      (result.map Prod.fst, (result.map Prod.snd).getD bitmap)
  | .mark index => (bitmapMark bitmap index).map (none, ·)
  | .unmark index => (bitmapUnmark bitmap index).map (none, ·)

section

variable (nbits : Nat) (present : Finset Nat)

/-- The least index that is not in the set. -/
def leastAbsent : Option Nat := (List.range nbits).find? fun index => index ∉ present

/-- The same calls on a set. -/
def respond : Request → Option Nat × Finset Nat
  | .alloc => (leastAbsent nbits present, (leastAbsent nbits present).elim present (insert · present))
  | .mark index => (none, insert index present)
  | .unmark index => (none, present.erase index)

/-- Only indices below the size are marked and unmarked, and that changes something. -/
def Proper : Request → Prop
  | .alloc => True
  | .mark index => index < nbits ∧ index ∉ present
  | .unmark index => index < nbits ∧ index ∈ present

end

/-- The bits below the size are those of the set, and the others have not changed. -/
def Represents (nbits : Nat) (others : Nat → Bool) (bitmap : Bitmap) (present : Finset Nat) : Prop :=
  ∀ index, bitmapIsset bitmap index = if index < nbits then decide (index ∈ present) else others index

/-- However it is called, a bitmap returns what the set returns and represents it. -/
def Agrees (nbits : Nat) (others : Nat → Bool) : Bitmap → Finset Nat → List Request → Prop
  | bitmap, present, [] => Represents nbits others bitmap present
  | bitmap, present, request :: rest => Represents nbits others bitmap present ∧
    (Proper nbits present request → ∃ after,
      bitmap.perform request = .ok ((respond nbits present request).1, after) ∧
      Agrees nbits others after (respond nbits present request).2 rest)

/-- A new bitmap behaves as the empty set does. -/
def BehavesAsSet (memory : Nat → Byte) (nbits : Nat) : Prop :=
  ∃ bitmap, bitmapCreate memory nbits = .ok bitmap ∧
    ∀ requests, Agrees nbits (bitmapIsset bitmap) bitmap ∅ requests

/-- The bits `bitmap_create` sets in the last byte. -/
theorem overbits_isset : ∀ overbits < 8, ∀ offset < 8,
    ((List.range' overbits (8 - overbits)).foldl (fun byte bit => byte ||| bitMask bit) 0).getLsbD
      offset = decide (overbits ≤ offset) := by
  decide

section

variable {nbits : Nat} {others : Nat → Bool} {bitmap : Bitmap} {present : Finset Nat}

/-- A new bitmap has no bit set below its size, and the rest of its last byte is set. -/
theorem create_isset (unwrapped : nbits + 7 < 2 ^ 32) (memory : Nat → Byte) :
    ∃ bitmap, bitmapCreate memory nbits = .ok bitmap ∧ bitmap.nbits = nbits ∧
      ∀ index, index < bitmapWords nbits * 8 → bitmapIsset bitmap index = decide (nbits ≤ index) := by
  have words : bitmapWords nbits = (nbits + 7) / 8 := by
    unfold bitmapWords
    omega
  by_cases aligned : nbits % 8 = 0
  · refine ⟨_, bitmap_create_bytes memory nbits aligned (by omega), rfl, fun index below => ?_⟩
    simp [bitmap_isset_eq, show index / 8 < nbits / 8 by omega, show index < nbits by omega]
  have small : nbits % 8 < 8 := Nat.mod_lt _ (by decide)
  unfold bitmapCreate
  rw [if_pos (by omega), if_pos (by omega)]
  refine ⟨_, rfl, rfl, fun index below => ?_⟩
  by_cases last : index / 8 = bitmapWords nbits - 1
  · simp only [bitmap_isset_eq, last, Function.update_self]
    rw [show nbits - (bitmapWords nbits - 1) * 8 = nbits % 8 by omega,
      overbits_isset _ small _ (Nat.mod_lt _ (by decide))]
    exact decide_eq_decide.mpr (by omega)
  · simp [bitmap_isset_eq, last, show index / 8 < bitmapWords nbits by omega,
      show index < nbits by omega]

section

variable (represents : Represents nbits others bitmap present) {index : Nat} (inside : index < nbits)

include represents inside

theorem Represents.set : Represents nbits others (bitmap.set index) (insert index present) := by
  intro other
  rw [isset_set, represents other]
  by_cases below : other < nbits
  · simp [below]
  · simp [below, show other ≠ index by omega]

theorem Represents.clear : Represents nbits others (bitmap.clear index) (present.erase index) := by
  intro other
  rw [isset_clear, represents other]
  by_cases below : other < nbits
  · simp [below]
  · simp [below, show other ≠ index by omega]

theorem Represents.isset : bitmapIsset bitmap index = decide (index ∈ present) := by
  rw [represents index, if_pos inside]

end

variable (unwrapped : nbits + 7 < 2 ^ 32)
  (padding : ∀ index, nbits ≤ index → index < bitmapWords nbits * 8 → others index = true)

include unwrapped padding

/-- One call. -/
theorem Represents.perform (represents : Represents nbits others bitmap present)
    (size : bitmap.nbits = nbits) {request : Request} (proper : Proper nbits present request) :
    ∃ after, bitmap.perform request = .ok ((respond nbits present request).1, after) ∧
      after.nbits = nbits ∧ Represents nbits others after (respond nbits present request).2 := by
  subst size
  cases request with
  | alloc =>
    have same : ((List.range bitmap.nbits).find? fun index => !bitmapIsset bitmap index) =
        leastAbsent bitmap.nbits present := by
      refine List.find?_congr fun index member => ?_
      rw [represents.isset (List.mem_range.mp member), decide_not]
    have allocated := bitmap_alloc_first bitmap unwrapped fun index past below => by
      rw [represents index, if_neg (by omega), padding index past below]
    simp only [Bitmap.perform, respond, allocated, same]
    cases search : leastAbsent bitmap.nbits present with
    | none => exact ⟨bitmap, rfl, rfl, represents⟩
    | some index =>
      exact ⟨_, rfl, rfl, represents.set (List.mem_range.mp (List.find?_range_eq_some.mp search).2.1)⟩
  | mark index =>
    refine ⟨bitmap.set index, ?_, rfl, represents.set proper.1⟩
    simp only [Bitmap.perform, bitmapMark, represents.isset proper.1, decide_eq_false proper.2,
      if_pos proper.1]
    rfl
  | unmark index =>
    refine ⟨bitmap.clear index, ?_, rfl, represents.clear proper.1⟩
    simp only [Bitmap.perform, bitmapUnmark, represents.isset proper.1, decide_eq_true proper.2,
      if_pos proper.1]
    rfl

theorem Represents.agrees (represents : Represents nbits others bitmap present)
    (size : bitmap.nbits = nbits) (requests : List Request) :
    Agrees nbits others bitmap present requests := by
  induction requests generalizing bitmap present with
  | nil => exact represents
  | cons request rest ih =>
    refine ⟨represents, fun proper => ?_⟩
    obtain ⟨after, performed, same, later⟩ := represents.perform unwrapped padding size proper
    exact ⟨after, performed, ih later same⟩

end

/-- A bitmap behaves as a set exactly if the number of its bytes is computed without wrapping. -/
theorem behaves_as_set_iff (memory : Nat → Byte) (nbits : BitVec 32) :
    BehavesAsSet memory nbits.toNat ↔ nbits.toNat + 7 < 2 ^ 32 := by
  constructor
  · rintro ⟨bitmap, created, agrees⟩
    by_contra wrapped
    have none : bitmapWords nbits.toNat = 0 := by
      unfold bitmapWords
      omega
    simp only [bitmapCreate, none, Nat.not_lt_zero, if_false, Except.ok.injEq] at created
    subst created
    obtain ⟨_, performed, _⟩ := (agrees [.alloc]).2 trivial
    have least : leastAbsent nbits.toNat ∅ = some 0 :=
      List.find?_range_eq_some.mpr ⟨rfl, List.mem_range.mpr (by omega), by simp⟩
    simp [Bitmap.perform, bitmapAlloc, none, respond, least, Except.map] at performed
  · intro unwrapped
    obtain ⟨bitmap, created, size, isset⟩ := create_isset unwrapped memory
    have words : nbits.toNat ≤ bitmapWords nbits.toNat * 8 := by
      unfold bitmapWords
      omega
    refine ⟨bitmap, created, Represents.agrees unwrapped (fun index past below => ?_)
      (fun index => ?_) size⟩
    · rw [isset index below, decide_eq_true past]
    · split
      · rw [isset index (by omega), decide_eq_false (by omega), decide_eq_false (by simp)]
      · rfl

/-- A bitmap of the largest size has no bit that is set, and no bit to allocate. -/
theorem largest_bitmap_full : ∃ bitmap, bitmapCreate (fun _ => 0) 4294967295 = .ok bitmap ∧
    bitmapIsset bitmap 0 = false ∧ bitmap.perform .alloc = .ok (none, bitmap) ∧
    leastAbsent 4294967295 ∅ = some 0 :=
  ⟨_, rfl, rfl, rfl, List.find?_range_eq_some.mpr ⟨rfl, List.mem_range.mpr (by decide), by simp⟩⟩

end Os161.Kern
