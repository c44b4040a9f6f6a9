import Os161.Kern.Uio
import Mathlib.Data.List.OfFn

/-!
# The disk driver

A disk is an array of sectors and the answers it is going to give: to each
sector submitted to it, success or a media error. `lhd_io` moves whole sectors
between the disk and a uio, one at a time and through the buffer of the card. For
a write the data leave the uio before the sector is submitted, so when the disk
then reports an error the uio has already been advanced.

Besides its result an I/O records the sectors that were submitted, with their
data and the disk's answers.
-/
namespace Os161.Kern

open Errno

/-- A sector, which is also a block of the file system. -/
abbrev Block := Fin 512 → Byte

/-- The bytes of a sector in order. -/
def Block.bytes (block : Block) : List Byte := List.ofFn block

/-- The sector with the given bytes. -/
def Block.ofBytes (bytes : List Byte) : Block := fun index => bytes.getD index 0

/-- The sectors of a disk, their number, and the answers to come, true being
success. -/
structure Device where
  sectors : Nat → Block
  nsect : Nat
  answers : Nat → Bool

/-- One submitted sector: which, in which direction, with which data, and the
answer. -/
structure Transfer where
  sector : Nat
  rw : Rw
  data : Block
  success : Bool

/-- What an I/O returns: its result, zero being none, the uio and the disk after
it, and the submitted sectors in order. -/
structure IoDone where
  result : Option Errno
  uio : Uio
  device : Device
  transfers : List Transfer

/-- The disk takes an answer off its list. -/
def Device.answered (device : Device) : Device :=
  { device with answers := fun index => device.answers (index + 1) }

/-- Submit one sector to be written. A sector the disk does not have is invalid. -/
def Device.submitWrite (device : Device) (sector : Nat) (data : Block) :
    Option Errno × Device × List Transfer :=
  if sector < device.nsect then
    if device.answers 0 then
      (none, { device.answered with sectors := Function.update device.sectors sector data },
        [⟨sector, .write, data, true⟩])
    else (some EIO, device.answered, [⟨sector, .write, data, false⟩])
  else (some .EINVAL, device, [])

/-- Submit one sector to be read. -/
def Device.submitRead (device : Device) (sector : Nat) : Option Errno × Device × List Transfer :=
  if sector < device.nsect then
    if device.answers 0 then
      (none, device.answered, [⟨sector, .read, device.sectors sector, true⟩])
    else (some EIO, device.answered, [⟨sector, .read, device.sectors sector, false⟩])
  else (some .EINVAL, device, [])

/-- The loop of `lhd_io` over a number of sectors from a given one on. -/
def lhdSectors : Nat → Nat → Device → Uio → Except Panic IoDone
  | 0, _, device, uio => .ok ⟨none, uio, device, []⟩
  | count + 1, sector, device, uio =>
    match uio.rw with
    | .write => do
      let moved ← uiomove (List.replicate 512 0) uio
      match moved.result with
      | some error => .ok ⟨some error, moved.uio, device, []⟩
      | none =>
        match device.submitWrite sector (Block.ofBytes moved.buffer) with
        | (some error, after, transfers) => .ok ⟨some error, moved.uio, after, transfers⟩
        | (none, after, transfers) => do
          let rest ← lhdSectors count (sector + 1) after moved.uio
          .ok { rest with transfers := transfers ++ rest.transfers }
    | .read =>
      match device.submitRead sector with
      | (some error, after, transfers) => .ok ⟨some error, uio, after, transfers⟩
      | (none, after, transfers) => do
        let moved ← uiomove (device.sectors sector).bytes uio
        match moved.result with
        | some error => .ok ⟨some error, moved.uio, after, transfers⟩
        | none => do
          let rest ← lhdSectors count (sector + 1) after moved.uio
          .ok { rest with transfers := transfers ++ rest.transfers }

/-- `lhd_io`. Offset and residue must be whole sectors, and the last sector must
exist; the sum in that test is an unsigned of 32 bits. -/
def lhdIo (device : Device) (uio : Uio) : Except Panic IoDone :=
  let sector := (uio.offset / 512) % 2 ^ 32
  let len := uio.resid / 512
  if uio.offset % 512 ≠ 0 ∨ uio.resid % 512 ≠ 0 then .ok ⟨some .EINVAL, uio, device, []⟩
  else if device.nsect < (sector + len) % 2 ^ 32 then .ok ⟨some .EINVAL, uio, device, []⟩
  else lhdSectors len sector device uio

theorem Block.bytes_length (block : Block) : block.bytes.length = 512 :=
  List.length_ofFn

theorem Block.ofBytes_bytes (block : Block) : Block.ofBytes block.bytes = block := by
  funext index
  unfold Block.ofBytes Block.bytes
  rw [List.getD_eq_getElem?_getD, List.getElem?_ofFn, dif_pos index.isLt]
  rfl

end Os161.Kern
