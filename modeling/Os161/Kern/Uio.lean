import Mathlib.Algebra.GroupWithZero.Nat
import Mathlib.Data.List.Basic

/-!
# Moving data between a kernel buffer and a uio

A uio describes a region of memory in pieces and how much of a transfer is left.
`uiomove` copies between it and a kernel buffer, in the direction the uio says,
and uses the uio up as it goes: a second move with the same uio continues where
the first one stopped. A piece of user memory may have bytes that are not mapped;
copying them is a fault, which ends the move with an error and leaves the uio
where the failing piece began.
-/
namespace Os161.Kern

abbrev Byte := BitVec 8

/-- The error codes the file system and its device return. -/
inductive Errno
  | ENOENT | EEXIST | EINVAL | EIO | ENOSPC | EFBIG | ENAMETOOLONG | ENOTDIR | EISDIR | ENOMEM
  | EFAULT | EBUSY | EAGAIN
  deriving DecidableEq

/-- The panics and failed assertions that stop the kernel. -/
inductive Panic
  | ranOutOfBuffers
  | deviceInvalid
  | assertion
  | ballocInvalidBlock
  | busedOutOfRange
  | markedFree
  | unallocatedInode
  | unallocatedLoad
  | invalidInodeType
  | invalidDirectorySize
  | linkcountZero
  | notInPool
  | cannotRecover
  | badPointer
  deriving DecidableEq

/-- The direction of a transfer, as seen by whoever asked for it. -/
inductive Rw
  | read
  | write
  deriving DecidableEq

/-- The pieces that are left, with the byte at each address or nothing where no
memory is mapped, the offset and residue, the direction, and the bytes a reader
has been given. -/
structure Uio where
  iov : List (List (Option Byte))
  offset : Nat
  resid : Nat
  rw : Rw
  delivered : List Byte

/-- What a move returns: its result, zero being none, the kernel buffer, and the
uio after it. -/
structure Moved where
  result : Option Errno
  buffer : List Byte
  uio : Uio

/-- The bytes of a mapped piece. -/
def mapped (piece : List (Option Byte)) : Option (List Byte) :=
  piece.mapM id

/-- Copy one piece against as many bytes of the buffer, in the direction of the
transfer. What it returns is what the buffer holds afterwards. -/
def copyPiece (rw : Rw) (piece : List (Option Byte)) (bytes : List Byte) : Option (List Byte) :=
  match rw with
  | .read => (mapped piece).map (fun _ => bytes)
  | .write => mapped piece

/-- Charge a copied piece to the uio. The residue is an unsigned of 32 bits. -/
def Uio.advance (uio : Uio) (size : Nat) (bytes : List Byte) : Uio :=
  { uio with
    offset := uio.offset + size
    resid := (uio.resid + 2 ^ 32 - size) % 2 ^ 32
    delivered := if uio.rw = .read then uio.delivered ++ bytes else uio.delivered }

/-- The loop of `uiomove`. The buffer is split into the part that is done and the
rest. Empty pieces are skipped, and running out of pieces is a panic. -/
def uiomoveLoop : List (List (Option Byte)) → Uio → List Byte → List Byte → Except Panic Moved
  | [], uio, done, rest =>
    if rest = [] ∨ uio.resid = 0 then .ok ⟨none, done ++ rest, { uio with iov := [] }⟩
    else .error .ranOutOfBuffers
  | piece :: others, uio, done, rest =>
    if rest = [] ∨ uio.resid = 0 then
      .ok ⟨none, done ++ rest, { uio with iov := piece :: others }⟩
    else
      let size := min piece.length rest.length
      match copyPiece uio.rw (piece.take size) (rest.take size) with
      | none => .ok ⟨some .EFAULT, done ++ rest, { uio with iov := piece :: others }⟩
      | some bytes =>
        let after := uio.advance size bytes
        if rest.drop size = [] ∨ after.resid = 0 then
          .ok ⟨none, done ++ bytes ++ rest.drop size,
            { after with iov := piece.drop size :: others }⟩
        else uiomoveLoop others after (done ++ bytes) (rest.drop size)

/-- `uiomove` with a buffer of as many bytes as are to be moved. -/
def uiomove (buffer : List Byte) (uio : Uio) : Except Panic Moved :=
  uiomoveLoop uio.iov uio [] buffer

/-- The loop of `uiomovezeros`, sixteen bytes a round. -/
def uiomovezerosLoop : Nat → Nat → Uio → Except Panic (Option Errno × Uio)
  | 0, _, uio => .ok (none, uio)
  | rounds + 1, n, uio => do
    let moved ← uiomove (List.replicate (min 16 n) 0) uio
    match moved.result with
    | some error => .ok (some error, moved.uio)
    | none => uiomovezerosLoop rounds (n - min 16 n) moved.uio

/-- `uiomovezeros`, which only makes sense when reading. -/
def uiomovezeros (n : Nat) (uio : Uio) : Except Panic (Option Errno × Uio) :=
  if uio.rw = .read then uiomovezerosLoop ((n + 15) / 16) n uio else .error .assertion

/-- `uio_kinit`: a single kernel buffer, which is always mapped. -/
def uioKinit (buffer : List Byte) (offset : Nat) (rw : Rw) : Uio where
  iov := [buffer.map some]
  offset := offset
  resid := buffer.length
  rw := rw
  delivered := []

theorem uio_kinit_resid {buffer : List Byte} {offset : Nat} {rw : Rw} :
    (uioKinit buffer offset rw).resid = buffer.length := rfl

/-- The bytes a uio has room for. -/
def Uio.room (uio : Uio) : Nat :=
  (uio.iov.map List.length).sum

theorem mapped_length (piece : List (Option Byte)) (bytes : List Byte)
    (all : mapped piece = some bytes) : bytes.length = piece.length := by
  induction piece generalizing bytes with
  | nil => simp_all [mapped]
  | cons first rest ih =>
    simp only [mapped, List.mapM_cons, id_eq, Option.bind_eq_bind, Option.bind_eq_some_iff,
      Option.pure_def, Option.some.injEq] at all
    obtain ⟨byte, _, others, found, rfl⟩ := all
    simp [ih others found]

/-- A buffer all of whose bytes are mapped is read as it is. -/
theorem mapped_map_some (bytes : List Byte) : mapped (bytes.map some) = some bytes := by
  induction bytes with
  | nil => rfl
  | cons first rest ih =>
    simp only [mapped, List.map_cons, List.mapM_cons, id_eq] at *
    simp [ih]

/-- A copied piece leaves as many bytes as it was given. -/
theorem copy_piece_length {rw : Rw} {piece : List (Option Byte)} {bytes after : List Byte}
    (same : piece.length = bytes.length) (copied : copyPiece rw piece bytes = some after) :
    after.length = bytes.length := by
  cases rw with
  | read =>
    simp only [copyPiece, Option.map_eq_some_iff] at copied
    obtain ⟨_, _, rfl⟩ := copied
    rfl
  | write => rw [mapped_length piece after copied, same]

/-- What a transfer of some length does to a uio: it takes some number of bytes off
the residue and the room and onto the offset, all of them unless it returns an
error. -/
structure Advances (uio : Uio) (length : Nat) (result : Option Errno) (after : Uio) : Prop where
  rw : after.rw = uio.rw
  progress : ∃ size, after.offset = uio.offset + size ∧ after.resid + size = uio.resid ∧
    after.room + size = uio.room ∧ (result = none → size = length)

theorem advances_error (uio : Uio) (length : Nat) (error : Errno) :
    Advances uio length (some error) uio :=
  ⟨rfl, 0, rfl, rfl, rfl, nofun⟩

theorem advances_none (uio : Uio) : Advances uio 0 none uio :=
  ⟨rfl, 0, rfl, rfl, rfl, fun _ => rfl⟩

section

variable {uio : Uio} {size : Nat} (bytes : List Byte) (fits : size ≤ uio.resid)
  (small : uio.resid < 2 ^ 32)

include fits small

theorem advance_resid : (uio.advance size bytes).resid + size = uio.resid := by
  simp only [Uio.advance]
  omega

/-- A piece, or the front of one, is charged to the uio. -/
theorem advances_piece {iov left : List (List (Option Byte))}
    (room : (left.map List.length).sum + size = (iov.map List.length).sum) :
    Advances { uio with iov := iov } size none { uio.advance size bytes with iov := left } :=
  ⟨rfl, size, rfl, advance_resid bytes fits small, room, fun _ => rfl⟩

end

/-- Two parts of a transfer, the second one after the first one has returned. -/
theorem Advances.trans {uio middle after : Uio} {first second : Nat} {result : Option Errno}
    (earlier : Advances uio first none middle) (later : Advances middle second result after) :
    Advances uio (first + second) result after := by
  obtain ⟨size, offset, resid, room, complete⟩ := earlier.progress
  obtain ⟨size', offset', resid', room', complete'⟩ := later.progress
  refine ⟨later.rw.trans earlier.rw, size + size', by omega, by omega, by omega, fun returned => ?_⟩
  rw [complete rfl, complete' returned]

/-- A part that failed is part of a longer transfer that failed. -/
theorem Advances.failed {uio after : Uio} {length : Nat} {error : Errno} (other : Nat)
    (advances : Advances uio length (some error) after) :
    Advances uio other (some error) after := by
  obtain ⟨size, offset, resid, room, _⟩ := advances.progress
  exact ⟨advances.rw, size, offset, resid, room, nofun⟩

/-- The loop of `uiomove` moves all that is left, whatever the buffers. By induction on them. -/
theorem uiomove_loop_moves (iov : List (List (Option Byte))) (uio : Uio) (done rest : List Byte)
    (fits : rest.length ≤ uio.resid) (room : uio.resid ≤ (iov.map List.length).sum)
    (small : uio.resid < 2 ^ 32) :
    ∃ moved, uiomoveLoop iov uio done rest = .ok moved ∧
      moved.buffer.length = done.length + rest.length ∧
      Advances { uio with iov := iov } rest.length moved.result moved.uio ∧
      (moved.result = none ∨ moved.result = some .EFAULT) := by
  by_cases stop : rest = [] ∨ uio.resid = 0
  · obtain rfl : rest = [] := stop.elim id (fun exhausted => List.length_eq_zero_iff.mp (by omega))
    cases iov <;> exact ⟨_, if_pos stop, by simp, advances_none _, Or.inl rfl⟩
  induction iov generalizing uio done rest with
  | nil => exact absurd (Or.inr (by simpa using room)) stop
  | cons piece others ih =>
    simp only [List.map_cons, List.sum_cons] at room
    unfold uiomoveLoop
    rw [if_neg stop]
    generalize amount : min piece.length rest.length = size
    have taken : (piece.take size).length = (rest.take size).length := by
      rw [List.length_take, List.length_take]
      omega
    cases copied : copyPiece uio.rw (piece.take size) (rest.take size) with
    | none =>
      simp only [copied]
      exact ⟨_, rfl, by simp, advances_error _ _ _, Or.inr rfl⟩
    | some bytes =>
      simp only [copied]
      have length := copy_piece_length taken copied
      rw [List.length_take] at length
      have left := advance_resid bytes (by omega : size ≤ uio.resid) small
      have parts : (rest.drop size).length + size = rest.length := by
        rw [List.length_drop]
        omega
      by_cases enough : rest.drop size = [] ∨ (uio.advance size bytes).resid = 0
      · rw [if_pos enough, ← List.length_eq_zero_iff] at *
        obtain rfl : size = rest.length := by omega
        refine ⟨_, rfl, by simp [length], advances_piece bytes fits small ?_, Or.inl rfl⟩
        simp only [List.map_cons, List.sum_cons, List.length_drop]
        omega
      · rw [if_neg enough]
        obtain rfl : size = piece.length := by
          by_contra shorter
          exact enough (Or.inl (List.drop_eq_nil_of_le (by omega)))
        obtain ⟨moved, evaluated, buffer, advances, result⟩ := ih (uio.advance piece.length bytes)
          (done ++ bytes) (rest.drop piece.length) (by omega) (by omega) (by omega) enough
        refine ⟨moved, evaluated, ?_, ?_, result⟩
        · rw [buffer, List.length_append]
          omega
        · rw [← parts, Nat.add_comm]
          exact (advances_piece bytes (by omega) small (by simp [Nat.add_comm])).trans advances

/-- A move whose buffer and uio fit together returns. -/
theorem uiomove_moves (buffer : List Byte) (uio : Uio) (fits : buffer.length ≤ uio.resid)
    (room : uio.resid ≤ uio.room) (small : uio.resid < 2 ^ 32) :
    ∃ moved, uiomove buffer uio = .ok moved ∧ moved.buffer.length = buffer.length ∧
      Advances uio buffer.length moved.result moved.uio ∧
      (moved.result = none ∨ moved.result = some .EFAULT) := by
  simpa [uiomove] using uiomove_loop_moves uio.iov uio [] buffer fits room small

/-- The loop of `uiomovezeros` moves the zeros in rounds of sixteen. By induction on them. -/
theorem uiomovezeros_loop_moves (rounds n : Nat) (uio : Uio) (enough : n ≤ 16 * rounds)
    (fits : n ≤ uio.resid) (room : uio.resid ≤ uio.room) (small : uio.resid < 2 ^ 32) :
    ∃ result after, uiomovezerosLoop rounds n uio = .ok (result, after) ∧
      Advances uio n result after := by
  induction rounds generalizing n uio with
  | zero => exact ⟨none, uio, rfl, rfl, ⟨0, rfl, rfl, rfl, fun _ => by omega⟩⟩
  | succ rounds ih =>
    obtain ⟨moved, evaluated, _, advances, _⟩ :=
      uiomove_moves (List.replicate (min 16 n) 0) uio (by rw [List.length_replicate]; omega)
        room small
    rw [List.length_replicate] at advances
    unfold uiomovezerosLoop
    simp only [evaluated, bind, Except.bind]
    cases returned : moved.result with
    | some error =>
      rw [returned] at advances
      exact ⟨some error, moved.uio, rfl, advances.failed n⟩
    | none =>
      rw [returned] at advances
      obtain ⟨size, _, resid, left, complete⟩ := advances.progress
      have whole := complete rfl
      obtain ⟨result, after, rest, later⟩ :=
        ih (n - min 16 n) moved.uio (by omega) (by omega) (by omega) (by omega)
      have total : min 16 n + (n - min 16 n) = n := by omega
      refine ⟨result, after, rest, ?_⟩
      rw [← total]
      exact advances.trans later

/-- Zeros can be moved to a uio that has room for them. -/
theorem uiomovezeros_moves {n : Nat} {uio : Uio} (reading : uio.rw = .read) (fits : n ≤ uio.resid)
    (room : uio.resid ≤ uio.room) (small : uio.resid < 2 ^ 32) :
    ∃ result after, uiomovezeros n uio = .ok (result, after) ∧ Advances uio n result after := by
  unfold uiomovezeros
  rw [if_pos reading]
  exact uiomovezeros_loop_moves _ n uio (by omega) fits room small

/-- A move between a kernel buffer and a uio over another one of the same size
exchanges the contents in the direction of the uio and uses the uio up. -/
theorem uiomove_kinit (bytes buffer : List Byte) (offset : Nat) (rw : Rw)
    (same : buffer.length = bytes.length) (nonempty : bytes ≠ []) :
    uiomove buffer (uioKinit bytes offset rw) = .ok ⟨none, if rw = .read then buffer else bytes,
      { iov := [[]], offset := offset + bytes.length, resid := 0, rw := rw,
        delivered := if rw = .read then buffer else [] }⟩ := by
  have positive : bytes.length ≠ 0 := by simpa using nonempty
  have filled : buffer ≠ [] := by
    intro empty
    simp [empty] at same
    omega
  have copied : copyPiece rw (bytes.map some) buffer =
      some (if rw = .read then buffer else bytes) := by
    cases rw <;> simp [copyPiece, mapped_map_some]
  unfold uiomove uiomoveLoop uioKinit
  simp only [filled, positive, or_self, if_false, List.length_map, same, Nat.min_self]
  rw [List.take_of_length_le (by simp), List.take_of_length_le (by omega), copied]
  have rest : buffer.drop bytes.length = [] := List.drop_eq_nil_of_le (by omega)
  have pieces : (bytes.map some).drop bytes.length = [] := List.drop_eq_nil_of_le (by simp)
  cases rw <;> simp [rest, pieces, Uio.advance]

end Os161.Kern
