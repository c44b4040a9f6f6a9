import Os161.Sfs.Bmap

/-!
# File-level I/O

`sfs_io` reads or writes a region of a file: a partial block at the start, whole
blocks, and a partial block at the end. Each part returns its result and the uio as
it left it, for the size of the file is adjusted by what was written even when the
last part failed. `sfs_metaio` reads and writes directory entries.

On a regular file all this keeps the invariant, the table and the directory. A
whole block is moved between the device and the uio in place, so a fault in user
memory can leave a block allocated and not written.
-/
namespace Os161.Sfs

open Os161.Kern Os161.Library Os161.Library.Program
open Ensures (bind_done attempt_bind)

/-- Run `uiomove` on a buffer. -/
def moveData (buffer : List Byte) (uio : Uio) : FsProgram Moved := fun fs =>
  match uiomove buffer uio with
  | .error panic => .stop panic
  | .ok moved => .done moved fs

/-- Run `uiomovezeros`. -/
def moveZeros (n : Nat) (uio : Uio) : FsProgram (Option Errno × Uio) := fun fs =>
  match uiomovezeros n uio with
  | .error panic => .stop panic
  | .ok moved => .done moved fs

/-- The file block at the offset of a uio, as an unsigned of 32 bits. -/
def fileblockOf (uio : Uio) : BitVec 32 := BitVec.ofNat 32 (uio.offset / 512)

/-- Missing blocks are allocated exactly for a write. -/
def doallocOf (uio : Uio) : Bool := decide (uio.rw = .write)

/-- The buffer of `sfs_partialio`: the block, or zeros where there is none. -/
def partialBuffer (diskblock : Ino) (uio : Uio) : FsProgram Block :=
  if diskblock = 0 then do
    check (uio.rw = .read) .assertion
    pure zeroBlock
  else readblock diskblock

/-- The last step of `sfs_partialio`: a modified block is written back. -/
def partialFinish (diskblock : Ino) (iobuf : Block) (skipstart len : Nat) (moved : Moved) :
    FsProgram (Option Errno × Uio) :=
  match moved.result with
  | some error => pure (some error, moved.uio)
  | none =>
    if moved.uio.rw = .write then do
      match ← attempt (writeblock diskblock (Block.ofBytes
          (iobuf.bytes.take skipstart ++ moved.buffer ++ iobuf.bytes.drop (skipstart + len)))) with
      | .error error => pure (some error, moved.uio)
      | .ok _ => pure (none, moved.uio)
    else pure (none, moved.uio)

def sfsPartialio (ino : Ino) (uio : Uio) (skipstart len : Nat) :
    FsProgram (Option Errno × Uio) := do
  check (skipstart + len ≤ 512) .assertion
  match ← attempt (sfsBmap ino (fileblockOf uio) (doallocOf uio)) with
  | .error error => pure (some error, uio)
  | .ok diskblock =>
    match ← attempt (partialBuffer diskblock uio) with
    | .error error => pure (some error, uio)
    | .ok iobuf => do
      let moved ← moveData ((iobuf.bytes.drop skipstart).take len) uio
      partialFinish diskblock iobuf skipstart len moved

/-- The device operation of `sfs_blockio`. The uio is given the offset of the block
on the device and the residue of one block; afterwards its own are restored, less
what was moved. The device offset is a product of 32 bits. -/
def blockDeviceBy (rwblock : Driver) (diskblock : Ino) (uio : Uio) :
    FsProgram (Option Errno × Uio) := fun fs =>
  let diskoff := diskblock.toNat * 512 % 2 ^ 32
  match rwblock fs.device { uio with offset := diskoff, resid := 512 } with
  | .error panic => .stop panic
  | .ok io =>
    .done (io.result, { io.uio with
        offset := io.uio.offset - diskoff + uio.offset
        resid := io.uio.resid + uio.resid - 512 })
      { fs with device := io.device }

abbrev blockDevice : Ino → Uio → FsProgram (Option Errno × Uio) := blockDeviceBy (sfsRwblock 10)

def sfsBlockio (ino : Ino) (uio : Uio) : FsProgram (Option Errno × Uio) := do
  match ← attempt (sfsBmap ino (fileblockOf uio) (doallocOf uio)) with
  | .error error => pure (some error, uio)
  | .ok diskblock =>
    if diskblock = 0 then do
      check (uio.rw = .read) .assertion
      moveZeros 512 uio
    else do
      check (512 ≤ uio.resid) .assertion
      blockDevice diskblock uio

/-- The loop of `sfs_io` over whole blocks, which an error leaves. -/
def sfsBlocks (ino : Ino) : Nat → Uio → FsProgram (Option Errno × Uio)
  | 0, uio => pure (none, uio)
  | count + 1, uio => do
    match ← sfsBlockio ino uio with
    | (some error, after) => pure (some error, after)
    | (none, after) => sfsBlocks ino count after

/-- The leading partial block of `sfs_io`, if there is one. -/
def sfsIoHead (ino : Ino) (uio : Uio) : FsProgram (Option Errno × Uio) :=
  if uio.offset % 512 ≠ 0 then
    sfsPartialio ino uio (uio.offset % 512) (min (512 - uio.offset % 512) uio.resid)
  else pure (none, uio)

/-- The trailing partial block of `sfs_io`, if there is one. -/
def sfsIoTail (ino : Ino) (uio : Uio) : FsProgram (Option Errno × Uio) := do
  check (uio.resid < 512) .assertion
  if 0 < uio.resid then sfsPartialio ino uio 0 uio.resid else pure (none, uio)

/-- The body of `sfs_io` once the uio is block-aligned. -/
def sfsIoAligned (ino : Ino) (uio : Uio) : FsProgram (Option Errno × Uio) := do
  check (uio.offset % 512 = 0) .assertion
  match ← sfsBlocks ino (uio.resid / 512) uio with
  | (some error, after) => pure (some error, after)
  | (none, after) => sfsIoTail ino after

/-- The body of `sfs_io` up to its exit. -/
def sfsIoBody (ino : Ino) (uio : Uio) : FsProgram (Option Errno × Uio) := do
  match ← sfsIoHead ino uio with
  | (some error, after) => pure (some error, after)
  | (none, after) => if after.resid = 0 then pure (none, after) else sfsIoAligned ino after

/-- The exit of `sfs_io`: a write that did anything past the end extends the file. -/
def sfsIoOut (ino : Ino) (origresid extraresid : Nat) (result : Option Errno) (uio : Uio) :
    FsProgram (Option Errno × Uio) := do
  let sv ← vnode ino
  if uio.resid ≠ origresid ∧ uio.rw = .write ∧ sv.i.size.toNat < uio.offset then do
    editVnode ino (fun sv => { sv with
      i := { sv.i with size := BitVec.ofNat 32 uio.offset }, dirty := true })
    pure (result, { uio with resid := uio.resid + extraresid })
  else pure (result, { uio with resid := uio.resid + extraresid })

/-- `sfs_io`. A read stops at the end of the file, and what was asked for past it is
added back to the residue. -/
def sfsIo (ino : Ino) (uio : Uio) : FsProgram (Option Errno × Uio) := do
  let sv ← vnode ino
  if uio.rw = .read ∧ sv.i.size.toNat ≤ uio.offset then pure (none, uio)
  else if uio.rw = .read ∧ sv.i.size.toNat < uio.offset + uio.resid then do
    let extraresid := uio.offset + uio.resid - sv.i.size.toNat
    check (extraresid < uio.resid) .assertion
    let (result, after) ← sfsIoBody ino { uio with resid := uio.resid - extraresid }
    sfsIoOut ino uio.resid extraresid result after
  else do
    let (result, after) ← sfsIoBody ino uio
    sfsIoOut ino uio.resid 0 result after

/-- A uio that can be moved: there is room for the residue, which is an unsigned of
32 bits. -/
structure Fitting (uio : Uio) : Prop where
  room : uio.resid ≤ uio.room
  small : uio.resid < 2 ^ 32

variable {uio : Uio} {pointed : Pointer}

theorem Fitting.advances {after : Uio} {length : Nat} {result : Option Errno}
    (fitting : Fitting uio) (advances : Advances uio length result after) : Fitting after := by
  obtain ⟨size, _, resid, room, _⟩ := advances.progress
  exact ⟨by have := fitting.room; omega, by have := fitting.small; omega⟩

/-- What a part of a transfer ensures. -/
def Transferred (before : Fs) (uio : Uio) (length : Nat) (returned : Option Errno × Uio)
    (after : Fs) : Prop :=
  Sound after ∧ Kept before after ∧ Advances uio length returned.1 returned.2

/-- A part of a transfer that began after blocks were mapped began before. -/
theorem Transferred.after_kept {before middle after : Fs} {length : Nat}
    {returned : Option Errno × Uio} (kept : Kept before middle)
    (transferred : Transferred middle uio length returned after) :
    Transferred before uio length returned after :=
  ⟨transferred.1, kept.trans transferred.2.1, transferred.2.2⟩

/-- Writing a block of data of a regular file keeps the invariant. -/
theorem sound_of_data {fs : Fs} (sound : Sound fs) {ino : Ino} (regular : ino ≠ rootdirIno)
    {sv : Vnode} (found : fs.heap ino = some sv) (data : pointed ≠ .indirect)
    (present : pointer (disk fs) ino pointed ≠ 0) (written : Block) :
    Sound (fs.put (pointer (disk fs) ino pointed) written) ∧
      Kept fs (fs.put (pointer (disk fs) ino pointed) written) := by
  have alive := live_of_loaded found
  exact sound_of_put sound.toStanding written (sound.unloaded_pointer pointed alive present)
    (books_of_data sound.books alive present data written)
    (alike_of_data sound.books alive present regular (root_live fs) written)

/-- The buffer of `sfs_partialio` is filled without a change. -/
theorem partial_buffer_returns {fs middle : Fs} {ino diskblock : Ino} (alive : live middle ino)
    (mapped : Mapped fs ino pointed (doallocOf uio) diskblock middle) :
    ∃ iobuf, partialBuffer diskblock uio middle = .done iobuf middle := by
  unfold partialBuffer
  by_cases absent : diskblock = 0
  · have reading : uio.rw = .read := by
      cases direction : uio.rw with
      | read => rfl
      | write => exact absurd absent (mapped.allocated (by simp [doallocOf, direction]))
    rw [if_pos absent]
    exact ⟨zeroBlock, by simp only [bind, andThen, check_passes reading]; rfl⟩
  · rw [if_neg absent]
    have used : InUse middle diskblock :=
      mapped.held ▸ mapped.sound.used_pointer pointed alive (by rw [mapped.held]; exact absent)
    exact ⟨_, readblock_returns mapped.sound.ready used.1⟩

theorem place_data {fileblock : Nat} (placed : place fileblock = some pointed) :
    pointed ≠ .indirect := by
  intro indirect
  exact place_ne_indirect fileblock (indirect ▸ placed)

section

variable {fs : Fs} (sound : Sound fs) {ino : Ino} (regular : ino ≠ rootdirIno) {sv : Vnode}
  (found : fs.heap ino = some sv)

include sound regular found

theorem partial_finish_ensures (data : pointed ≠ .indirect) {diskblock : Ino}
    (held : pointer (disk fs) ino pointed = diskblock) (iobuf : Block) {len : Nat} (skipstart : Nat)
    {moved : Moved} (allocated : uio.rw = .write → diskblock ≠ 0)
    (advances : Advances uio len moved.result moved.uio) :
    Succeeds (partialFinish diskblock iobuf skipstart len moved) fs (Transferred fs uio len) := by
  unfold partialFinish
  cases returned : moved.result with
  | some error => exact ensures_pure ⟨sound, Kept.refl fs, returned ▸ advances⟩
  | none =>
    rw [returned] at advances
    by_cases writing : moved.uio.rw = .write
    · have present := allocated (advances.rw ▸ writing)
      simp only [writing, if_true]
      subst held
      obtain ⟨after, kept⟩ := sound_of_data sound regular found data present (Block.ofBytes
        (iobuf.bytes.take skipstart ++ moved.buffer ++ iobuf.bytes.drop (skipstart + len)))
      have below := (sound.used_pointer pointed (live_of_loaded found) present).1
      exact bind_done (attempt_of_done (writeblock_returns sound.ready _ _ below))
        (ensures_pure ⟨after, kept, advances⟩)
    · simp only [writing, if_false]
      exact ensures_pure ⟨sound, Kept.refl fs, advances⟩

theorem sfs_partialio_ensures (fitting : Fitting uio) (skipstart len : Nat)
    (inside : skipstart + len ≤ 512) (enough : len ≤ uio.resid) :
    Succeeds (sfsPartialio ino uio skipstart len) fs (Transferred fs uio len) := by
  refine bind_done (check_passes inside) ?_
  refine attempt_bind (sfs_bmap_ensures sound found (fileblockOf uio) (doallocOf uio)) ?_ ?_
  · rintro diskblock middle ⟨pointed, placed, mapped⟩
    obtain ⟨sv', found'⟩ := mapped.kept.refs.found found
    obtain ⟨iobuf, filled⟩ := partial_buffer_returns (live_of_loaded found') mapped
    refine bind_done (attempt_of_done filled) ?_
    have length : ((iobuf.bytes.drop skipstart).take len).length = len := by
      rw [List.length_take, List.length_drop, Block.bytes_length]
      omega
    obtain ⟨moved, evaluated, _, advances, _⟩ := uiomove_moves
      ((iobuf.bytes.drop skipstart).take len) uio (by rw [length]; exact enough) fitting.room
      fitting.small
    rw [length] at advances
    have ran : moveData ((iobuf.bytes.drop skipstart).take len) uio middle = .done moved middle := by
      simp [moveData, evaluated]
    refine bind_done ran ?_
    refine (partial_finish_ensures mapped.sound regular found' (place_data placed)
      mapped.held iobuf skipstart
      (fun writing => mapped.allocated (by simp [doallocOf, writing])) advances).on_return
      (fun _ _ transferred => transferred.after_kept mapped.kept)
  · rintro error middle ⟨sound', kept, _⟩
    exact ensures_pure ⟨sound', kept, advances_error uio len error⟩

theorem block_device_ensures (data : pointed ≠ .indirect)
    (present : pointer (disk fs) ino pointed ≠ 0) (fitting : Fitting uio)
    (enough : 512 ≤ uio.resid) :
    Succeeds (blockDevice (pointer (disk fs) ino pointed) uio) fs (Transferred fs uio 512) := by
  have used := sound.used_pointer pointed (live_of_loaded found) present
  have small := sound.ready.small
  have below := used.1
  have diskoff : (pointer (disk fs) ino pointed).toNat * 512 % 2 ^ 32 =
      (pointer (disk fs) ino pointed).toNat * 512 := Nat.mod_eq_of_lt (by omega)
  have room := fitting.room
  obtain ⟨io, evaluated, ⟨rw, size, offset, resid, left, complete⟩, device⟩ :=
    sfs_rwblock_moves fs.device (pointer (disk fs) ino pointed)
      { uio with offset := (pointer (disk fs) ino pointed).toNat * 512, resid := 512 }
      (by rw [sound.ready.nsect]; exact below) sound.ready.answers rfl rfl
      (show 512 ≤ uio.room by omega)
  simp only at offset resid
  have advances : Advances uio 512 io.result { io.uio with
      offset := io.uio.offset - (pointer (disk fs) ino pointed).toNat * 512 + uio.offset
      resid := io.uio.resid + uio.resid - 512 } := by
    refine ⟨rw, size, ?_, ?_, left, complete⟩
    · show io.uio.offset - _ + uio.offset = uio.offset + size
      omega
    · show io.uio.resid + uio.resid - 512 + size = uio.resid
      omega
  have ran : blockDevice (pointer (disk fs) ino pointed) uio fs = .done (io.result, { io.uio with
        offset := io.uio.offset - (pointer (disk fs) ino pointed).toNat * 512 + uio.offset
        resid := io.uio.resid + uio.resid - 512 }) { fs with device := io.device } := by
    simp only [blockDeviceBy, diskoff, evaluated]
  refine ensures_of_done ran ?_
  rcases device with same | ⟨_, written, changed⟩
  · rw [same]
    exact ⟨sound, Kept.refl fs, advances⟩
  · rw [changed]
    obtain ⟨after, kept⟩ := sound_of_data sound regular found data present written
    exact ⟨after, kept, advances⟩

/-- `sfs_blockio` moves one whole block. -/
theorem sfs_blockio_ensures (uio : Uio) (fitting : Fitting uio) (enough : 512 ≤ uio.resid) :
    Succeeds (sfsBlockio ino uio) fs (Transferred fs uio 512) := by
  refine attempt_bind (sfs_bmap_ensures sound found (fileblockOf uio) (doallocOf uio)) ?_ ?_
  · rintro diskblock middle ⟨pointed, placed, mapped⟩
    obtain ⟨sv', found'⟩ := mapped.kept.refs.found found
    by_cases absent : diskblock = 0
    · have reading : uio.rw = .read := by
        cases direction : uio.rw with
        | read => rfl
        | write => exact absurd absent (mapped.allocated (by simp [doallocOf, direction]))
      obtain ⟨result, after, evaluated, advances⟩ :=
        uiomovezeros_moves reading enough fitting.room fitting.small
      simp only [absent, if_true]
      refine bind_done (check_passes reading) ?_
      refine ensures_of_done (by simp only [moveZeros, evaluated]; rfl)
        ⟨mapped.sound, mapped.kept, advances⟩
    · simp only [absent, if_false]
      refine bind_done (check_passes enough) ?_
      have held := mapped.held
      subst held
      exact (block_device_ensures mapped.sound regular found' (place_data placed) absent fitting
        enough).on_return (fun _ _ transferred => transferred.after_kept mapped.kept)
  · rintro error middle ⟨sound', kept, _⟩
    exact ensures_pure ⟨sound', kept, advances_error uio 512 error⟩

omit sound regular in
/-- A part of a transfer, and the rest of it unless the part failed. -/
theorem transfer_bind {first : FsProgram (Option Errno × Uio)}
    {second : Option Errno × Uio → FsProgram (Option Errno × Uio)} {part total : Nat}
    (fitting : Fitting uio) (ensured : Succeeds first fs (Transferred fs uio part))
    (fails : ∀ error between, second (some error, between) = pure (some error, between))
    (goes_on : ∀ between middle sv', Sound middle → middle.heap ino = some sv' → Fitting between →
      between.offset = uio.offset + part → part + between.resid = uio.resid → ∃ rest,
        part + rest = total ∧ Succeeds (second (none, between)) middle (Transferred middle between rest)) :
    Succeeds (first >>= second) fs (Transferred fs uio total) := by
  refine ensured.bind ?_
  rintro ⟨result, between⟩ middle ⟨sound', kept, advances⟩
  cases result with
  | some error =>
    rw [fails]
    exact ensures_pure ⟨sound', kept, advances.failed _⟩
  | none =>
    obtain ⟨sv', found'⟩ := kept.refs.found found
    obtain ⟨size, offset, resid, _, complete⟩ := advances.progress
    obtain rfl := complete rfl
    obtain ⟨rest, rfl, later⟩ := goes_on between middle sv' sound' found' (fitting.advances advances)
      offset ((Nat.add_comm _ _).trans resid)
    exact later.on_return fun _ _ transferred =>
      ⟨transferred.1, kept.trans transferred.2.1, advances.trans transferred.2.2⟩

theorem sfs_blocks_ensures (count : Nat) (uio : Uio) (fitting : Fitting uio)
    (enough : 512 * count ≤ uio.resid) :
    Succeeds (sfsBlocks ino count uio) fs (Transferred fs uio (512 * count)) := by
  induction count generalizing fs sv uio with
  | zero => exact ensures_pure ⟨sound, Kept.refl fs, advances_none uio⟩
  | succ count ih =>
    refine transfer_bind found fitting (sfs_blockio_ensures sound regular found uio fitting (by omega))
      (fun _ _ => rfl) ?_
    intro between middle sv' sound' found' fits _ resid
    exact ⟨512 * count, by omega, ih sound' found' between fits (by omega)⟩

/-- A block-aligned transfer of whole blocks and a rest. -/
theorem sfs_io_aligned_ensures (fitting : Fitting uio) (aligned : uio.offset % 512 = 0) :
    Succeeds (sfsIoAligned ino uio) fs (Transferred fs uio uio.resid) := by
  refine bind_done (check_passes aligned) ?_
  refine transfer_bind found fitting
    (sfs_blocks_ensures sound regular found (uio.resid / 512) uio fitting (by omega)) (fun _ _ => rfl) ?_
  intro between middle sv' sound' found' fits _ resid
  refine ⟨between.resid, resid, bind_done (check_passes (by omega)) ?_⟩
  by_cases left : 0 < between.resid
  · rw [if_pos left]
    exact sfs_partialio_ensures sound' regular found' fits 0 between.resid (by omega) le_rfl
  · rw [if_neg left, show between.resid = 0 by omega]
    exact ensures_pure ⟨sound', Kept.refl middle, advances_none between⟩

/-- `sfs_io` moves all that is asked: part of a block, whole blocks, part of a block. -/
theorem sfs_io_body_ensures (fitting : Fitting uio) :
    Succeeds (sfsIoBody ino uio) fs (Transferred fs uio uio.resid) := by
  have head : Succeeds (sfsIoHead ino uio) fs (Transferred fs uio (if uio.offset % 512 ≠ 0 then
        min (512 - uio.offset % 512) uio.resid else 0)) := by
    unfold sfsIoHead
    by_cases partly : uio.offset % 512 ≠ 0
    · rw [if_pos partly, if_pos partly]
      exact sfs_partialio_ensures sound regular found fitting _ _ (by omega) (by omega)
    · rw [if_neg partly, if_neg partly]
      exact ensures_pure ⟨sound, Kept.refl fs, advances_none uio⟩
  refine transfer_bind found fitting head (fun _ _ => rfl) ?_
  intro between middle sv' sound' found' fits offset resid
  refine ⟨between.resid, resid, ?_⟩
  by_cases done : between.resid = 0
  · simp only [done, if_true]
    exact ensures_pure ⟨sound', Kept.refl middle, advances_none between⟩
  · simp only [done, if_false]
    refine sfs_io_aligned_ensures sound' regular found' fits ?_
    split_ifs at offset resid <;> omega

theorem sfs_io_out_ensures (origresid extraresid : Nat) (result : Option Errno) (uio : Uio) :
    Succeeds (sfsIoOut ino origresid extraresid result uio) fs
      (fun _ after => Sound after ∧ Kept fs after) := by
  refine bind_done (vnode_returns found) ?_
  split
  · have alive := live_of_loaded found
    have same := node_disk found
    obtain ⟨after, kept⟩ := sound_of_pointers sound.toStanding found
      { sv with i := { sv.i with size := BitVec.ofNat 32 uio.offset }, dirty := true }
      rfl rfl rfl rfl (books_of_inode sound.books alive _ (by rw [same]) (by rw [same]))
      (alike_of_size sound.books alive _ (by rw [same]) (by rw [same]) regular (root_live fs))
    exact bind_done (edit_vnode_returns ino _ sv found) (ensures_pure ⟨after, kept⟩)
  · exact ensures_pure ⟨sound, Kept.refl fs⟩

/-- `sfs_io` on a regular file returns, and keeps the invariant, the table and the
directory, whatever the result. -/
theorem sfs_io_ensures (fitting : Fitting uio) :
    Succeeds (sfsIo ino uio) fs (fun _ after => Sound after ∧ Kept fs after) := by
  have rest : ∀ (part : Uio) (extraresid : Nat), Fitting part → Succeeds (do
        let (result, after) ← sfsIoBody ino part
        sfsIoOut ino uio.resid extraresid result after) fs
        (fun _ after => Sound after ∧ Kept fs after) := by
    intro part extraresid fits
    refine (sfs_io_body_ensures sound regular found fits).bind ?_
    rintro ⟨result, between⟩ middle ⟨sound', kept, _⟩
    obtain ⟨sv', found'⟩ := kept.refs.found found
    exact (sfs_io_out_ensures sound' regular found' uio.resid extraresid result between).on_return
      (fun _ _ after => ⟨after.1, kept.trans after.2⟩)
  refine bind_done (vnode_returns found) ?_
  by_cases past : uio.rw = .read ∧ sv.i.size.toNat ≤ uio.offset
  · rw [if_pos past]
    exact ensures_pure ⟨sound, Kept.refl fs⟩
  rw [if_neg past]
  by_cases beyond : uio.rw = .read ∧ sv.i.size.toNat < uio.offset + uio.resid
  · rw [if_pos beyond]
    have before : uio.offset < sv.i.size.toNat := by
      by_contra outside
      exact past ⟨beyond.1, by omega⟩
    refine bind_done (check_passes (by omega)) (rest _ _ ⟨?_, ?_⟩)
    · have room := fitting.room
      show uio.resid - _ ≤ uio.room
      omega
    · show uio.resid - _ < 2 ^ 32
      omega
  · rw [if_neg beyond]
    exact rest uio 0 fitting

end

end Os161.Sfs
