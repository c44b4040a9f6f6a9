import Os161.Kern.Uio

/-!
# What a move transfers

A move over buffers that are mapped takes the bytes at the front of them in order, as many as
are asked for and as the residue allows. A buffer that is used up stays in front until the next
move skips it, so that a move in two parts leaves the same uio as a move of the whole. The
residue is only looked at between buffers: where it ends within one, a move of more bytes than
that goes past it.
-/
namespace Os161.Kern

/-- The buffers that are left when so many bytes have been moved. -/
def consume : List (List Byte) → Nat → List (List Byte)
  | [], _ => []
  | piece :: others, size =>
    if size = 0 then piece :: others
    else if size ≤ piece.length then piece.drop size :: others
    else consume others (size - piece.length)

theorem consume_zero (pieces : List (List Byte)) : consume pieces 0 = pieces := by
  cases pieces <;> rfl

/-- Consuming twice is consuming the sum. By induction on the pieces. -/
theorem consume_add (pieces : List (List Byte)) (first second : Nat) :
    consume (consume pieces first) second = consume pieces (first + second) := by
  induction pieces generalizing first with
  | nil => rfl
  | cons piece others ih =>
    by_cases none_first : first = 0
    · rw [none_first, consume_zero, Nat.zero_add]
    by_cases none_second : second = 0
    · rw [none_second, consume_zero, Nat.add_zero]
    by_cases inside : first ≤ piece.length
    · simp only [consume, none_first, none_second, inside, if_false, if_true, List.length_drop,
        List.drop_drop, Nat.add_eq_zero_iff, false_and, Nat.le_sub_iff_add_le' inside]
      rw [show second - (piece.length - first) = first + second - piece.length by omega]
    · have outside : ¬ first + second ≤ piece.length := by omega
      simp only [consume, none_first, inside, outside, if_false, ih, Nat.add_eq_zero_iff, false_and]
      rw [show first - piece.length + second = first + second - piece.length by omega]

theorem consume_flatten (pieces : List (List Byte)) (size : Nat) :
    (consume pieces size).flatten = pieces.flatten.drop size := by
  induction pieces generalizing size with
  | nil => exact List.drop_nil.symm
  | cons piece others ih =>
    unfold consume
    rw [List.flatten_cons, List.drop_append]
    split
    · simp_all
    · split
      next inside => rw [List.flatten_cons, Nat.sub_eq_zero_of_le inside, List.drop_zero]
      next outside =>
        have past : piece.drop size = [] := List.drop_eq_nil_of_le (by omega)
        rw [ih, past, List.nil_append]

/-- The residue ends where a buffer does. -/
def EndsWithBuffer : List (List Byte) → Nat → Prop
  | [], resid => resid = 0
  | piece :: others, resid =>
    resid = 0 ∨ piece.length ≤ resid ∧ EndsWithBuffer others (resid - piece.length)

theorem ends_at_zero (pieces : List (List Byte)) : EndsWithBuffer pieces 0 := by
  cases pieces with
  | nil => rfl
  | cons piece others => exact Or.inl rfl

theorem ends_with_last (pieces : List (List Byte)) : EndsWithBuffer pieces pieces.flatten.length := by
  induction pieces with
  | nil => rfl
  | cons piece others ih =>
    rw [List.flatten_cons, List.length_append]
    exact Or.inr ⟨Nat.le_add_right _ _, (Nat.add_sub_cancel_left _ _).symm ▸ ih⟩

/-- A uio over mapped buffers. -/
def uioOver (pieces : List (List Byte)) (offset resid : Nat) (rw : Rw) (delivered : List Byte) : Uio where
  iov := pieces.map (List.map some)
  offset := offset
  resid := resid
  rw := rw
  delivered := delivered

/-- What the kernel buffer holds after bytes of it have been moved. -/
def exchanged (rw : Rw) (memory buffer : List Byte) : List Byte :=
  if rw = .read then buffer else memory

attribute [local simp] exchanged

/-- What a reader has been given after that. -/
def given (rw : Rw) (delivered buffer : List Byte) : List Byte :=
  if rw = .read then delivered ++ buffer else delivered

/-- What a move returns that has taken so many bytes off the front of the buffers. -/
def Uio.moved (uio : Uio) (pieces : List (List Byte)) (buffer : List Byte) (size : Nat) : Moved where
  result := none
  buffer := exchanged uio.rw (pieces.flatten.take size) (buffer.take size) ++ buffer.drop size
  uio := uioOver (consume pieces size) (uio.offset + size) (uio.resid - size) uio.rw
    (given uio.rw uio.delivered (buffer.take size))

theorem copy_piece_over (rw : Rw) (piece bytes : List Byte) (count : Nat) :
    copyPiece rw ((piece.map some).take count) (bytes.take count) =
      some (exchanged rw (piece.take count) (bytes.take count)) := by
  rw [← List.map_take]
  cases rw <;> simp only [copyPiece, mapped_map_some, exchanged, reduceCtorEq, if_true, if_false,
    Option.map_some]

theorem advance_over {uio : Uio} {size : Nat} {memory bytes : List Byte} (small : uio.resid < 2 ^ 32)
    (within : size ≤ uio.resid) : uio.advance size (exchanged uio.rw memory bytes) = { uio with
      offset := uio.offset + size
      resid := uio.resid - size
      delivered := given uio.rw uio.delivered bytes } := by
  have charged := Nat.eq_sub_of_add_eq (advance_resid (exchanged uio.rw memory bytes) within small)
  obtain ⟨iov, offset, resid, rw, delivered⟩ := uio
  rw [← charged]
  cases rw <;> rfl

/-- The loop over buffers moves what the abstract move does, ahead of what is done. By induction on
the pieces: a round empties one buffer or ends the loop. -/
theorem uiomove_loop_over (pieces : List (List Byte)) (uio : Uio) (done rest : List Byte) {size : Nat}
    (amount : size = min rest.length uio.resid) (small : uio.resid < 2 ^ 32)
    (room : size ≤ pieces.flatten.length)
    (ends : rest.length ≤ uio.resid ∨ EndsWithBuffer pieces uio.resid) :
    uiomoveLoop (pieces.map (List.map some)) uio done rest = .ok { uio.moved pieces rest size with
      buffer := done ++ (uio.moved pieces rest size).buffer } := by
  by_cases none_moved : size = 0
  · have stop : rest = [] ∨ uio.resid = 0 := by
      rw [← List.length_eq_zero_iff]
      omega
    subst none_moved
    cases pieces <;> simp [uiomoveLoop, stop, Uio.moved, uioOver, consume, given]
  induction pieces generalizing uio done rest size with
  | nil => exact absurd (Nat.le_zero.mp room) none_moved
  | cons piece others ih =>
    have going : ¬ (rest = [] ∨ uio.resid = 0) := by
      rw [← List.length_eq_zero_iff]
      omega
    have bounded : rest.length ≤ uio.resid ∨ piece.length ≤ uio.resid ∧
        EndsWithBuffer others (uio.resid - piece.length) :=
      ends.imp id (fun ends => ends.resolve_left (by omega))
    simp only [List.map_cons, uiomoveLoop, if_neg going, copy_piece_over, List.length_map]
    by_cases inside : size ≤ piece.length
    · have all : min piece.length rest.length = size := by omega
      rw [all, advance_over small (by omega), if_pos]
      · simp [Uio.moved, uioOver, consume, none_moved, inside, List.map_drop, List.flatten_cons,
          List.take_append_of_le_length]
      · rw [List.drop_eq_nil_iff]
        dsimp only
        omega
    · obtain ⟨more, rfl⟩ := Nat.exists_eq_add_of_le (Nat.le_of_not_le inside)
      have whole : min piece.length rest.length = piece.length := by omega
      rw [whole, advance_over small (by omega), if_neg]
      · refine (ih _ _ _ (show more = _ from ?_) ?_ ?_ ?_ (by omega)).trans ?_
        · dsimp only
          rw [List.length_drop]
          omega
        · dsimp only
          omega
        · rw [List.flatten_cons, List.length_append] at room
          omega
        · refine bounded.imp (fun fits => ?_) And.right
          dsimp only
          rw [List.length_drop]
          omega
        · simp only [Uio.moved, uioOver, consume, none_moved, inside, if_false, List.flatten_cons,
            List.take_add, List.drop_drop, Nat.add_sub_cancel_left, Nat.add_assoc, Nat.sub_sub,
            List.take_left, List.drop_left]
          cases uio.rw <;> simp [given]
      · rw [List.drop_eq_nil_iff]
        dsimp only
        omega

section

variable (pieces : List (List Byte)) (offset : Nat) (rw : Rw) (delivered : List Byte)

theorem uio_over_room (resid : Nat) :
    (uioOver pieces offset resid rw delivered).room = pieces.flatten.length := by
  simp [Uio.room, uioOver, List.length_flatten, Function.comp_def]

theorem uiomove_over {resid size : Nat} {buffer : List Byte} (small : resid < 2 ^ 32)
    (room : resid ≤ pieces.flatten.length) (amount : size = min buffer.length resid)
    (ends : buffer.length ≤ resid ∨ EndsWithBuffer pieces resid) :
    uiomove buffer (uioOver pieces offset resid rw delivered) =
      .ok ((uioOver pieces offset resid rw delivered).moved pieces buffer size) :=
  uiomove_loop_over pieces (uioOver pieces offset resid rw delivered) [] buffer amount small (by omega) ends

/-- A move of a buffer takes as many bytes as the residue allows off the front of the buffers,
and a move in two parts does what a move of the whole does. -/
theorem uiomove_composes (first second : List Byte) (small : pieces.flatten.length < 2 ^ 32)
    {uio : Uio} (laid : uio = uioOver pieces offset pieces.flatten.length rw delivered) {moved : Moved}
    (part : moved = uio.moved pieces first (min first.length uio.resid)) :
    uiomove first uio = .ok moved ∧ moved.uio.room = moved.uio.resid ∧
      moved.uio.iov.flatten = (pieces.flatten.drop (min first.length uio.resid)).map some ∧
      ∃ later, uiomove second moved.uio = .ok later ∧
        uiomove (first ++ second) uio = .ok { later with buffer := moved.buffer ++ later.buffer } := by
  subst laid part
  generalize amount : min first.length (uioOver pieces offset _ rw delivered).resid = size
  change min first.length pieces.flatten.length = size at amount
  have left : (consume pieces size).flatten.length = pieces.flatten.length - size := by
    rw [consume_flatten, List.length_drop]
  have later := uiomove_over (consume pieces size) (offset + size) rw
    (given rw delivered (first.take size)) (by omega) (Nat.le_refl _)
    (rfl : min second.length _ = _) (Or.inr (ends_with_last _))
  generalize rest : min second.length (consume pieces size).flatten.length = more at later
  have whole := uiomove_over pieces offset rw delivered small (Nat.le_refl _)
    (show size + more = min (first ++ second).length _ by rw [List.length_append]; omega)
    (Or.inr (ends_with_last pieces))
  rw [left] at later
  refine ⟨uiomove_over pieces offset rw delivered small (Nat.le_refl _) amount.symm
    (Or.inr (ends_with_last pieces)), (uio_over_room _ _ _ _ _).trans left, ?_, _, later, whole.trans ?_⟩
  · rw [← consume_flatten, List.map_flatten]
    rfl
  · simp only [Uio.moved, uioOver, consume_flatten, consume_add, Nat.add_assoc, Nat.sub_sub]
    -- The first part takes its whole buffer, or it leaves nothing for the second.
    rcases (by omega : size = first.length ∨ more = 0 ∧ size ≤ first.length) with rfl | ⟨rfl, fits⟩
    · rw [List.take_length_add_append, List.take_add]
      cases rw <;> simp [given]
    · rw [Nat.add_zero, List.take_append_of_le_length fits, List.drop_append_of_le_length fits]
      cases rw <;> simp [given, ← List.append_assoc]

/-- The offset never goes back. -/
theorem uiomove_loop_onward {iov : List (List (Option Byte))} {uio : Uio} {done rest : List Byte}
    {moved : Moved} (ran : uiomoveLoop iov uio done rest = .ok moved) :
    uio.offset ≤ moved.uio.offset := by
  induction iov generalizing uio done rest with
  | nil =>
    simp only [uiomoveLoop] at ran
    split at ran <;> cases ran
    exact Nat.le_refl _
  | cons piece others ih =>
    simp only [uiomoveLoop] at ran
    split at ran
    · cases ran
      exact Nat.le_refl _
    split at ran
    · cases ran
      exact Nat.le_refl _
    split at ran
    · cases ran
      exact Nat.le_add_right _ _
    · exact Nat.le_trans (Nat.le_add_right _ _) (ih ran)

/-- Where the residue ends within a buffer, a move of more bytes goes past it. -/
theorem uiomove_loop_overshoots {uio : Uio} {done rest : List Byte} {moved : Moved}
    (longer : uio.resid < rest.length) (within : ¬ EndsWithBuffer pieces uio.resid)
    (small : uio.resid < 2 ^ 32)
    (ran : uiomoveLoop (pieces.map (List.map some)) uio done rest = .ok moved) :
    uio.offset + uio.resid < moved.uio.offset := by
  induction pieces generalizing uio done rest with
  | nil =>
    have nonzero : uio.resid ≠ 0 := within
    simp [uiomoveLoop, List.ne_nil_of_length_pos (by omega : 0 < rest.length), nonzero] at ran
  | cons piece others ih =>
    obtain ⟨nonzero, within⟩ := not_or.mp within
    simp only [List.map_cons, uiomoveLoop, List.ne_nil_of_length_pos (by omega : 0 < rest.length),
      nonzero, or_self, if_false, copy_piece_over, List.length_map] at ran
    by_cases inside : piece.length ≤ uio.resid
    · rw [show min piece.length rest.length = piece.length by omega,
        advance_over small inside] at ran
      split at ran
      next stopped =>
        rw [List.drop_eq_nil_iff] at stopped
        dsimp only at stopped
        have none_left : uio.resid - piece.length = 0 := by omega
        exact absurd ⟨inside, none_left ▸ ends_at_zero others⟩ within
      next =>
        have past := ih (by dsimp only; rw [List.length_drop]; omega) (fun ends => within ⟨inside, ends⟩)
          (by dsimp only; omega) ran
        dsimp only at past
        omega
    · have past : uio.resid < min piece.length rest.length := by omega
      split at ran
      · cases ran
        exact Nat.add_lt_add_left past _
      · exact Nat.lt_of_lt_of_le (Nat.add_lt_add_left past _) (uiomove_loop_onward ran)

/-- A move over buffers that are long enough stays within the residue exactly if it is asked to,
or if a buffer ends where the residue does. -/
theorem uiomove_within_residue_iff (resid : BitVec 32) (buffer : List Byte) {uio : Uio}
    (laid : uio = uioOver pieces offset resid.toNat rw delivered)
    (room : resid.toNat ≤ pieces.flatten.length) :
    uiomove buffer uio = .ok (uio.moved pieces buffer (min buffer.length uio.resid)) ↔
      buffer.length ≤ uio.resid ∨ EndsWithBuffer pieces uio.resid := by
  subst laid
  constructor
  · intro ran
    by_contra neither
    obtain ⟨longer, within⟩ := not_or.mp neither
    have past := uiomove_loop_overshoots pieces (by omega) within resid.isLt ran
    have stays := Nat.min_le_right buffer.length (uioOver pieces offset resid.toNat rw delivered).resid
    exact absurd (Nat.add_le_add_left stays _) (Nat.not_le.mpr past)
  · exact uiomove_over pieces offset rw delivered resid.isLt room rfl

end

/-- Three bytes in two buffers are written in two parts. -/
theorem three_bytes_composed :
    let uio := uioOver [[1, 2], [], [3]] 0 3 .write []
    uiomove [0] uio = .ok (uio.moved [[1, 2], [], [3]] [0] 1) ∧
      ∃ later, uiomove [0, 0] (uio.moved [[1, 2], [], [3]] [0] 1).uio = .ok later ∧
        uiomove [0, 0, 0] uio = .ok { later with buffer := [1] ++ later.buffer } := by
  have composed := uiomove_composes [[1, 2], [], [3]] 0 .write [] [0] [0, 0] (by decide) rfl rfl
  exact ⟨composed.1, composed.2.2.2⟩

/-- Within two buffers of two bytes, a residue of one byte and a move of one. -/
theorem one_byte_within :
    let uio := uioOver [[1, 2], [3, 4]] 0 1 .write []
    uiomove [0] uio = .ok (uio.moved [[1, 2], [3, 4]] [0] 1) :=
  (uiomove_within_residue_iff [[1, 2], [3, 4]] 0 .write [] 1 [0] rfl (by decide)).mpr (Or.inl (by decide))

/-- A buffer of two bytes with a residue of one: a move of two takes both, and the residue wraps. -/
theorem residue_wraps : uiomove [0, 0] (uioOver [[1, 2]] 0 1 .write []) =
      .ok ⟨none, [1, 2], uioOver [[]] 2 4294967295 .write []⟩ := rfl

end Os161.Kern
