import Os161.Kern.Lhd

/-!
# Block transfers of the file system

`sfs_writeblock` and `sfs_readblock` describe a kernel buffer with a uio and hand
it to `sfs_rwblock`, which repeats the device operation up to ten times while the
device reports an I/O error. Every attempt is made with the same uio. The driver
takes the data of a write out of the uio before it knows the answer of the disk,
so the second attempt finds nothing left to write and succeeds at once.
-/
namespace Os161.Sfs

open Os161.Kern Os161.Kern.Errno Function

/-- `DEVOP_IO`, and what `sfs_rwblock` makes of it. -/
abbrev Driver := Device → Uio → Except Panic IoDone

/-- `sfs_rwblock` on a driver, with a number of retries left. `EINVAL` is a panic. -/
def sfsRwblockOn (driver : Driver) : Nat → Driver
  | 0, device, uio => do
    let io ← driver device uio
    if io.result = some .EINVAL then .error .deviceInvalid else .ok io
  | retries + 1, device, uio => do
    let io ← driver device uio
    if io.result = some .EINVAL then .error .deviceInvalid
    else if io.result = (some EIO : Option Errno) then do
      let again ← sfsRwblockOn driver retries io.device io.uio
      .ok { again with transfers := io.transfers ++ again.transfers }
    else .ok io

/-- `sfs_rwblock` on `lhd`, the device a volume is mounted on. -/
abbrev sfsRwblock : Nat → Driver := sfsRwblockOn lhdIo

section

variable (device : Device) (block : BitVec 32)

/-- `sfs_writeblock` of a block of data, with `SFSUIO` for the uio. -/
def sfsWriteblock (data : Block) : Except Panic IoDone :=
  sfsRwblock 10 device (uioKinit data.bytes (block.toNat * 512) .write)

/-- `sfs_readblock`. The data are what the uio of the returned I/O was given. -/
def sfsReadblock : Except Panic IoDone :=
  sfsRwblock 10 device (uioKinit (List.replicate 512 0) (block.toNat * 512) .read)

/-- What a return of `sfs_writeblock` may be taken for. On success the last sector
the disk completed is a write of exactly these data to exactly this block, and an
I/O error is reported or is followed by such a write. -/
def Acknowledges (block : BitVec 32) (data : Block) (io : IoDone) : Prop :=
  (io.result = none →
    (io.transfers.filter Transfer.success).getLast? = some ⟨block.toNat, .write, data, true⟩) ∧
  ∀ before transfer after, io.transfers = before ++ transfer :: after → transfer.success = false →
    io.result ≠ none ∨ ⟨block.toNat, .write, data, true⟩ ∈ after

/-- One sector of the driver's loop for a write from a kernel buffer. The uio is
used up whatever the disk answers. -/
theorem lhd_sectors_write (device : Device) (sector offset : Nat) (data : Block) :
    lhdSectors 1 sector device (uioKinit data.bytes offset .write) =
      .ok { result := (device.submitWrite sector data).1
            uio := ⟨[[]], offset + 512, 0, .write, []⟩
            device := (device.submitWrite sector data).2.1
            transfers := (device.submitWrite sector data).2.2 } := by
  have moved := uiomove_kinit data.bytes (List.replicate 512 0) offset .write
    (by rw [List.length_replicate, Block.bytes_length])
    (by intro empty; simpa [empty] using Block.bytes_length data)
  simp only [Block.bytes_length, reduceCtorEq, if_false] at moved
  unfold lhdSectors
  rw [show (uioKinit data.bytes offset .write).rw = Rw.write from rfl]
  simp only [moved, bind, Except.bind, Block.ofBytes_bytes]
  rcases device.submitWrite sector data with ⟨_ | error, after, transfers⟩ <;> simp [lhdSectors]

/-- The driver refuses a block that the disk does not have, or submits it. -/
theorem lhd_io_write (data : Block) : (device.nsect ≤ block.toNat ∧ ∃ io,
        lhdIo device (uioKinit data.bytes (block.toNat * 512) .write) = .ok io ∧
          io.result = some .EINVAL) ∨
      lhdIo device (uioKinit data.bytes (block.toNat * 512) .write) =
        lhdSectors 1 block.toNat device (uioKinit data.bytes (block.toNat * 512) .write) := by
  have resid : (uioKinit data.bytes (block.toNat * 512) .write).resid = 512 :=
    (uio_kinit_resid).trans (Block.bytes_length data)
  have offset : (uioKinit data.bytes (block.toNat * 512) .write).offset = block.toNat * 512 := rfl
  have sector : block.toNat * 512 / 512 % 2 ^ 32 = block.toNat := by omega
  unfold lhdIo
  rw [resid, offset, sector, if_neg (by omega)]
  by_cases refused : device.nsect < (block.toNat + 512 / 512) % 2 ^ 32
  · rw [if_pos refused]
    exact Or.inl ⟨by omega, _, rfl, rfl⟩
  · exact Or.inr (if_neg refused)

/-- After an error the uio has nothing left, and the driver finds nothing to do. -/
theorem lhd_io_exhausted (rw : Rw) (delivered : List Byte)
    (exists_block : block.toNat < device.nsect) :
    lhdIo device ⟨[[]], block.toNat * 512 + 512, 0, rw, delivered⟩ =
      .ok ⟨none, ⟨[[]], block.toNat * 512 + 512, 0, rw, delivered⟩, device, []⟩ := by
  unfold lhdIo
  rw [if_neg (by simp only []; omega), if_neg (by simp only []; omega), Nat.zero_div]
  rfl

/-- `sfs_writeblock` on a disk that has the block: one sector is submitted, and the
call returns success whatever the disk answers. -/
theorem sfs_writeblock_returns (data : Block) (exists_block : block.toNat < device.nsect) :
    ∃ io, sfsWriteblock device block data = .ok io ∧ io.result = none ∧
      io.transfers = [⟨block.toNat, .write, data, device.answers 0⟩] ∧
      io.device = if device.answers 0 then
          { device.answered with sectors := update device.sectors block.toNat data }
        else device.answered := by
  rcases lhd_io_write device block data with ⟨missing, _⟩ | submitted
  · omega
  have first := submitted.trans (lhd_sectors_write device block.toNat (block.toNat * 512) data)
  have second := lhd_io_exhausted device.answered block .write [] exists_block
  simp only [Device.submitWrite, exists_block, if_true] at first
  unfold sfsWriteblock sfsRwblock sfsRwblockOn
  cases answer : device.answers 0 with
  | true =>
    simp only [answer, if_true] at first
    simp only [first, bind, Except.bind]
    exact ⟨_, rfl, rfl, rfl, rfl⟩
  | false =>
    simp only [answer, Bool.false_eq_true, if_false] at first
    unfold sfsRwblockOn
    simp only [first, second, bind, Except.bind]
    exact ⟨_, rfl, rfl, rfl, rfl⟩

/-- Writing a block that the disk does not have is a panic. -/
theorem sfs_writeblock_panics (data : Block) (missing : device.nsect ≤ block.toNat) :
    sfsWriteblock device block data = .error .deviceInvalid := by
  have refused : ∃ io, lhdIo device (uioKinit data.bytes (block.toNat * 512) .write) = .ok io ∧
      io.result = some .EINVAL := by
    rcases lhd_io_write device block data with ⟨_, refused⟩ | submitted
    · exact refused
    · have outside : ¬ block.toNat < device.nsect := by omega
      refine ⟨_, submitted.trans (lhd_sectors_write _ _ _ _), ?_⟩
      simp [Device.submitWrite, outside]
  obtain ⟨io, evaluated, invalid⟩ := refused
  unfold sfsWriteblock sfsRwblock sfsRwblockOn
  simp [evaluated, bind, Except.bind, invalid]

/-- The driver turns a uio for one existing block into one sector. -/
theorem lhd_io_single {uio : Uio} (exists_block : block.toNat < device.nsect)
    (offset : uio.offset = block.toNat * 512) (resid : uio.resid = 512) :
    lhdIo device uio = lhdSectors 1 block.toNat device uio := by
  have sector : block.toNat * 512 / 512 % 2 ^ 32 = block.toNat := by omega
  unfold lhdIo
  rw [offset, resid, sector, if_neg (by omega), if_neg (by omega)]

theorem answered_of_succeeds {device : Device} (succeeds : device.answers = fun _ => true) :
    device.answered = device := by
  obtain ⟨sectors, nsect, answers⟩ := device
  subst succeeds
  rfl

/-- On a disk that has the block and does not fail, a transfer of one block with any
uio moves the data once, and changes that block at most. -/
theorem sfs_rwblock_moves (uio : Uio) (exists_block : block.toNat < device.nsect)
    (succeeds : device.answers = fun _ => true) (offset : uio.offset = block.toNat * 512)
    (resid : uio.resid = 512) (room : 512 ≤ uio.room) :
    ∃ io, sfsRwblock 10 device uio = .ok io ∧ Advances uio 512 io.result io.uio ∧
      (io.device = device ∨ uio.rw = .write ∧ ∃ data, io.device =
        { device with sectors := update device.sectors block.toNat data }) := by
  have answer : device.answers 0 = true := by rw [succeeds]
  have unchanged := answered_of_succeeds succeeds
  have moves : ∃ io, lhdSectors 1 block.toNat device uio = .ok io ∧
      Advances uio 512 io.result io.uio ∧ (io.result = none ∨ io.result = some .EFAULT) ∧
      (io.device = device ∨ uio.rw = .write ∧ ∃ data, io.device =
        { device with sectors := update device.sectors block.toNat data }) := by
    unfold lhdSectors
    cases direction : uio.rw with
    | write =>
      obtain ⟨moved, evaluated, _, advances, result⟩ := uiomove_moves (List.replicate 512 0) uio
        (by rw [List.length_replicate]; omega) (by omega) (by omega)
      rw [List.length_replicate] at advances
      simp only [evaluated, bind, Except.bind]
      cases returned : moved.result with
      | some error => exact ⟨_, rfl, returned ▸ advances, returned ▸ result, Or.inl rfl⟩
      | none =>
        simp only [Device.submitWrite, exists_block, answer, if_true, unchanged, lhdSectors]
        exact ⟨_, rfl, returned ▸ advances, Or.inl rfl, Or.inr ⟨trivial, _, rfl⟩⟩
    | read =>
      obtain ⟨moved, evaluated, _, advances, result⟩ :=
        uiomove_moves (device.sectors block.toNat).bytes uio
        (by rw [Block.bytes_length]; omega) (by omega) (by omega)
      rw [Block.bytes_length] at advances
      simp only [Device.submitRead, exists_block, answer, if_true, unchanged, evaluated, bind,
        Except.bind]
      cases returned : moved.result with
      | some error => exact ⟨_, rfl, returned ▸ advances, returned ▸ result, Or.inl rfl⟩
      | none =>
        exact ⟨_, rfl, returned ▸ advances, returned ▸ result, Or.inl rfl⟩
  obtain ⟨io, evaluated, advances, result, after⟩ := moves
  refine ⟨io, ?_, advances, after⟩
  unfold sfsRwblock sfsRwblockOn
  rw [lhd_io_single device block exists_block offset resid, evaluated]
  rcases result with returned | returned <;> simp [bind, Except.bind, returned]

end

section reading

variable (block : BitVec 32) (blank : List Byte) (size : blank.length = 512)

include size

end reading

/-- On a disk that has the block and does not fail, `sfs_readblock` returns the
block. -/
theorem sfs_readblock_returns {device : Device} {block : BitVec 32}
    (exists_block : block.toNat < device.nsect) (succeeds : device.answers = fun _ => true) :
    ∃ io, sfsReadblock device block = .ok io ∧ io.result = none ∧ io.device = device ∧
      io.uio.delivered = (device.sectors block.toNat).bytes := by
  have answer : device.answers 0 = true := by rw [succeeds]
  have unchanged := answered_of_succeeds succeeds
  have moved := uiomove_kinit (List.replicate 512 0) (device.sectors block.toNat).bytes
    (block.toNat * 512) .read (by rw [List.length_replicate, Block.bytes_length])
    (by exact List.cons_ne_nil _ _)
  have sector : ∃ io, lhdSectors 1 block.toNat device
        (uioKinit (List.replicate 512 0) (block.toNat * 512) .read) = .ok io ∧
      io.result = none ∧ io.device = device ∧
      io.uio.delivered = (device.sectors block.toNat).bytes := by
    simp only [Device.submitRead, exists_block, answer, if_true, unchanged, moved, bind,
      Except.bind, lhdSectors]
    refine ⟨_, rfl, rfl, rfl, ?_⟩
    dsimp only
  obtain ⟨io, evaluated, returned, same, delivered⟩ := sector
  refine ⟨io, ?_, returned, same, delivered⟩
  have resid : (uioKinit (List.replicate 512 0) (block.toNat * 512) .read).resid = 512 :=
    (uio_kinit_resid).trans List.length_replicate
  unfold sfsReadblock sfsRwblock sfsRwblockOn
  rw [lhd_io_single device block exists_block rfl resid, evaluated]
  simp [bind, Except.bind, returned]

/-- A return of `sfs_writeblock` acknowledges the write exactly when the disk does
not have the block, so that the call does not return, or the first answer of the
disk is success. -/
theorem writeblock_acknowledges_iff (device : Device) (block : BitVec 32) (data : Block) :
    (∀ io, sfsWriteblock device block data = .ok io → Acknowledges block data io) ↔
      device.nsect ≤ block.toNat ∨ device.answers 0 = true := by
  by_cases exists_block : block.toNat < device.nsect
  · obtain ⟨io, evaluated, returned, submitted, _⟩ :=
      sfs_writeblock_returns device block data exists_block
    constructor
    · intro acknowledged
      refine Or.inr ?_
      have completed := (acknowledged io evaluated).1 returned
      rw [submitted] at completed
      cases answer : device.answers 0 with
      | true => rfl
      | false => simp [answer] at completed
    · rintro (missing | answer) other returns
      · omega
      · rw [evaluated] at returns
        cases returns
        rw [answer] at submitted
        refine ⟨fun _ => by rw [submitted]; rfl, ?_⟩
        intro before transfer after split failed
        rw [submitted] at split
        have member : transfer ∈ [(⟨block.toNat, .write, data, true⟩ : Transfer)] := by
          rw [split]
          simp
        rw [List.mem_singleton.mp member] at failed
        cases failed
  · have missing : device.nsect ≤ block.toNat := by omega
    refine ⟨fun _ => Or.inl missing, fun _ io returns => ?_⟩
    rw [sfs_writeblock_panics device block data missing] at returns
    cases returns

/-- A disk of eight sectors that answers the first request with an error. -/
def failsOnce : Device where
  sectors := fun _ _ => 0
  nsect := 8
  answers := fun index => 0 < index

/-- The write of a block of ones to block five fails and is acknowledged: nothing
was written. -/
theorem acknowledged_without_writing :
    ∃ io, sfsWriteblock failsOnce 5 (fun _ => 1) = .ok io ∧ io.result = none ∧
      io.device.sectors 5 = (fun _ => 0) ∧ ¬ Acknowledges 5 (fun _ => 1) io := by
  obtain ⟨io, evaluated, returned, submitted, after⟩ :=
    sfs_writeblock_returns failsOnce 5 (fun _ => 1) (by decide)
  refine ⟨io, evaluated, returned, ?_, ?_⟩
  · rw [after]
    rfl
  · intro acknowledged
    have completed := acknowledged.1 returned
    rw [submitted] at completed
    cases completed

end Os161.Sfs
