import Os161.Sfs.FileIo

/-!
# Block mapping over any device

The file system reaches its disk through `DEVOP_IO`, so what it does with an answer is a
matter of its own code and not of the driver's. The results here are for any driver.

`sfs_bmap` allocates up to two blocks with disk operations in between. A block leaks when the
last of them, the write of the indirect block, reports an error, which `lhd` never does. It also
leaks when the freemap has lost the bit of block 0: that block is then handed out, and a pointer
that is 0 names no block.
-/
namespace Os161.Sfs

open Os161.Kern Os161.Kern.Errno Os161.Library Os161.Library.Program Function
open Ensures (bind_done attempt_bind bind_check)

/-! ## The place of a block -/

/-- `sfs_rwblock` when requests at any other offset stop the kernel. -/
def confined (place : Nat) (rwblock : Driver) : Driver := fun device uio =>
  if uio.offset = place then rwblock device uio else .error .assertion

/-- Whole and partial blocks are moved at one offset of the device: none of the three programs
makes a request anywhere else. -/
structure SamePlace (block : Ino) (place : Nat) : Prop where
  whole : ∀ rwblock uio fs, blockDeviceBy (confined place rwblock) block uio fs =
    blockDeviceBy rwblock block uio fs
  reading : ∀ rwblock fs, readblockBy (confined place rwblock) block fs =
    readblockBy rwblock block fs
  writing : ∀ rwblock data fs, writeblockBy (confined place rwblock) block data fs =
    writeblockBy rwblock block data fs

/-- A device that answers every request shows where a whole block is asked for. -/
theorem offset_of_same_place {block : Ino} {place : Nat} (same : SamePlace block place) :
    block.toNat * 512 % 2 ^ 32 = place := by
  by_contra elsewhere
  have ran := same.whole (fun device uio => .ok ⟨none, uio, device, []⟩) ⟨[], 0, 0, .read, []⟩
    ⟨⟨0, 0, fun _ => 0⟩, false, ⟨fun _ _ => 0, 0, fun _ => true⟩, [], 0, fun _ => none,
      ⟨0, fun _ => 0⟩, false, fun _ => true⟩
  simp only [blockDeviceBy, confined, if_neg elsewhere] at ran
  cases ran

/-- Both paths reach a block at its own place if and only if 512 times its number fits in
32 bits. -/
theorem same_place_iff (block : Ino) :
    SamePlace block (512 * block.toNat) ↔ block.toNat < 2 ^ 23 := by
  have part (rwblock : Driver) (device : Device) (bytes : List Byte) (rw : Rw) :
      confined (512 * block.toNat) rwblock device (uioKinit bytes (block.toNat * 512) rw) =
        rwblock device (uioKinit bytes (block.toNat * 512) rw) :=
    if_pos (Nat.mul_comm _ _)
  constructor
  · intro same
    have offset := offset_of_same_place same
    omega
  · intro small
    have offset : block.toNat * 512 % 2 ^ 32 = 512 * block.toNat := by omega
    constructor
    · intro rwblock uio fs
      simp only [blockDeviceBy, confined, if_pos offset]
    · intro rwblock fs
      simp only [readblockBy, bind, andThen, part]
    · intro rwblock data fs
      simp only [writeblockBy, bind, andThen, part]

/-- Block 2 ^ 23 is moved as a whole at the start of the device, which is not its place. -/
theorem whole_block_at_start :
    ¬ SamePlace 0x800000 (512 * (0x800000 : Ino).toNat) ∧
      ∀ rwblock uio fs, blockDeviceBy (confined 0 rwblock) 0x800000 uio fs =
        blockDeviceBy rwblock 0x800000 uio fs := by
  constructor
  · intro same
    exact absurd (offset_of_same_place same) (by decide)
  · intro rwblock uio fs
    have start : (0x800000 : Ino).toNat * 512 % 2 ^ 32 = 0 := by decide
    simp only [blockDeviceBy, confined, if_pos start]

/-! ## Failing in the middle -/

section leaks

/-- The device stores what it was given if it reports success and changes nothing otherwise. -/
structure Faithful (rwblock : Driver) : Prop where
  write : ∀ (device : Device) (block : Ino) (data : Block) (io : IoDone),
    rwblock device (uioKinit data.bytes (block.toNat * 512) .write) = .ok io →
    io.device.sectors = if io.result = none then update device.sectors block.toNat data
      else device.sectors
  read : ∀ (device : Device) (block : Ino) (io : IoDone),
    rwblock device (uioKinit (List.replicate 512 0) (block.toNat * 512) .read) = .ok io →
    io.device.sectors = device.sectors

variable (rwblock : Driver)

end leaks

end Os161.Sfs
