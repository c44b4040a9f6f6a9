import Os161.Sfs.Vnops

/-!
# Operations on the whole file system

Writing everything back, and mounting. The freemap is read and written as a whole.
A sync writes the freemap and the superblock over their own blocks and the inodes
over theirs, which changes nothing about the files.
-/
namespace Os161.Sfs

open Os161.Kern Os161.Library Os161.Library.Program Function

/-- A block of the freemap as it stands in memory. -/
def freemapBlock (freemap : Bitmap) (j : Nat) : Block :=
  fun index => freemap.v (512 * j + index)

/-- The freemap with one of its blocks read in. -/
def loadFreemap (freemap : Bitmap) (j : Nat) (data : Block) : Bitmap :=
  { freemap with
    v := fun ix => if inside : 512 * j ≤ ix ∧ ix < 512 * j + 512 then data ⟨ix - 512 * j, by omega⟩
      else freemap.v ix }

/-- A round of the loop of `sfs_freemapio`. -/
def sfsFreemapioRound (rw : Rw) (j : Nat) (_ : PUnit) : FsProgram PUnit :=
  match rw with
  | .read => do
    let data ← readblock (BitVec.ofNat 32 (freemapStart + j))
    change (fun fs => { fs with freemap := loadFreemap fs.freemap j data })
  | .write => do
    let freemap ← inspect Fs.freemap
    writeblock (BitVec.ofNat 32 (freemapStart + j)) (freemapBlock freemap j)

def sfsFreemapio (rw : Rw) : FsProgram PUnit := do
  let freemapblocks ← inspect (fun fs => (sfsFreemapblocks fs.sb.nblocks).toNat)
  countUp (sfsFreemapioRound rw) freemapblocks ()

/-- `sfs_sync_vnodes`, which goes over the table and ignores errors. -/
def sfsSyncVnodes : List Ino → FsProgram PUnit
  | [] => pure ()
  | v :: rest => do
    let _ ← attempt (sfsFsync v)
    sfsSyncVnodes rest

def sfsSyncFreemap : FsProgram PUnit := do
  let dirty ← inspect Fs.freemapdirty
  if dirty = true then do
    sfsFreemapio .write
    change (fun fs => { fs with freemapdirty := false })
  else pure ()

def sfsSyncSuperblock : FsProgram PUnit := do
  let dirty ← inspect Fs.superdirty
  if dirty = true then do
    let sb ← inspect Fs.sb
    writeblock 0 sb.encode
    change (fun fs => { fs with superdirty := false })
  else pure ()

def sfsSync : FsProgram PUnit := do
  let vnodes ← inspect Fs.vnodes
  sfsSyncVnodes vnodes
  sfsSyncFreemap
  sfsSyncSuperblock

/-- `sfs_fs_create`, on a device and with the memory there is. The freemap is only
there after the superblock has been read. -/
def sfsFsCreate (device : Device) (memory : Nat → Bool) : Option Fs :=
  if memory 0 = true ∧ memory 1 = true then
    some {
      sb := ⟨0, 0, fun _ => 0⟩
      superdirty := false
      device := device
      vnodes := []
      vnodesMax := 0
      heap := fun _ => none
      freemap := ⟨0, fun _ => 0⟩
      freemapdirty := false
      memory := fun index => memory (index + 2) }
  else none

/-- The last byte of the volume name is cleared. -/
def terminate (sb : Superblock) : Superblock :=
  { sb with volname := update sb.volname 31 0 }

/-- The part of `sfs_domount` after the superblock was checked. The freemap is
created in memory that holds anything. -/
def sfsLoadFreemap (garbage : Nat → Byte) : FsProgram PUnit := do
  let nbits ← inspect (fun fs => (sfsFreemapbits fs.sb.nblocks).toNat)
  let object ← kmalloc
  let words ← kmalloc
  if object = true ∧ words = true then
    match bitmapCreate garbage nbits with
    | .error panic => stopWith panic
    | .ok freemap => do
      change (fun fs => { fs with freemap := freemap })
      sfsFreemapio .read
  else failWith .ENOMEM

/-- `sfs_domount` once there is a file system object. -/
def sfsDomount (garbage : Nat → Byte) : FsProgram PUnit := do
  let data ← readblock 0
  change (fun fs => { fs with sb := Superblock.decode data })
  let sb ← inspect Fs.sb
  if sb.magic ≠ sfsMagic then failWith .EINVAL
  else do
    change (fun fs => { fs with sb := terminate fs.sb })
    sfsLoadFreemap garbage

/-- A file system that was mounted from a device. -/
def Mounted (device : Device) (fs : Fs) : Prop :=
  ∃ memory garbage created, sfsFsCreate device memory = some created ∧
    sfsDomount garbage created = .done () fs

section reserved

variable {fs : Fs} (consistent : Consistent fs) {way : Way} {block : Ino}
  (owned : Owns (fs.freemap.nbits / 4096) (disk fs) (live fs) way block)
  (noInode : ∀ ino, way ≠ .inode ino) (noPointer : ∀ ino pointed, way ≠ .block ino pointed)

include consistent owned noInode noPointer

/-- The superblock and the freemap are outside of every file, so writing them does
not change the files. -/
theorem consistent_put_reserved (data : Block) :
    Consistent (fs.put block data) ∧ Kept fs (fs.put block data) := by
  have outside : ∀ other, live fs other →
      SameFile (disk fs) (update (disk fs) block data) other := by
    intro other alive
    have apart : Outside (disk fs) block other := by
      apply outside_of_unowned alive
      · exact fun also => noInode other (consistent.books.unique _ _ _ owned also)
      · exact fun pointed also => noPointer other pointed (consistent.books.unique _ _ _ owned also)
    exact apart.same
  have unloaded : fs.heap block = none := by
    cases found : fs.heap block with
    | none => rfl
    | some sv =>
      have also : Owns (fs.freemap.nbits / 4096) (disk fs) (live fs) (.inode block) block :=
        ⟨live_of_loaded found, rfl⟩
      exact absurd (consistent.books.unique _ _ _ owned also) (noInode block)
  have root := outside rootdirIno (root_live fs)
  have alike : Alike (live fs) (disk fs) (update (disk fs) block data) :=
    alike_of_others rootdirIno (root_live fs) (fun other alive _ => outside other alive)
      (by rw [root.node]) (by rw [root.node]) (fun _ => ⟨by rw [root.node], root.contents⟩)
  obtain ⟨sound, kept⟩ := sound_of_put consistent.toStanding data unloaded
    (consistent.books.congr (owns_congr fun other alive => (outside other alive).pointer)
      (fun _ => Iff.rfl)) alike
  exact ⟨consistent.kept sound kept, kept⟩

end reserved

/-- The size of the freemap in blocks, on a volume that is ready. -/
theorem Ready.freemapblocks {fs : Fs} (ready : Ready fs) :
    (sfsFreemapblocks fs.sb.nblocks).toNat = fs.freemap.nbits / 4096 := by
  have small := ready.small
  rw [freemapblocks_to_nat, ready.nbits]
  omega

section sync

variable {fs : Fs} (consistent : Consistent fs)

include consistent

theorem sfs_freemapio_write_ensures :
    Succeeds (sfsFreemapio .write) fs (fun _ after => Consistent after ∧ Kept fs after) := by
  have blocks := consistent.ready.freemapblocks
  refine Ensures.bind_done rfl ?_
  dsimp only
  rw [blocks]
  refine (ensures_count_up (sfsFreemapioRound .write)
    (fun _ _ after => Consistent after ∧ Kept fs after ∧ after.freemap = fs.freemap) ()
    ⟨consistent, Kept.refl fs, rfl⟩ ?_).on_return (fun _ _ written => ⟨written.1, written.2.1⟩)
  rintro j _ middle below ⟨consistent', kept, freemap⟩
  have nbits := consistent'.ready.nbits
  rw [← freemap] at below
  have number : (BitVec.ofNat 32 (freemapStart + j)).toNat = freemapStart + j := by
    exact Nat.mod_eq_of_lt (by unfold freemapStart; omega)
  have owned : Owns (middle.freemap.nbits / 4096) (disk middle) (live middle) (.freemap j)
      (BitVec.ofNat 32 (freemapStart + j)) := ⟨below, number⟩
  have used := consistent'.books.used_of_owns (.freemap j) owned
  have put := consistent_put_reserved consistent' owned (fun _ => by simp) (fun _ _ => by simp)
    (freemapBlock middle.freemap j)
  refine Ensures.bind_done rfl
    (ensures_of_done (writeblock_returns consistent'.ready _ _ used.1) ?_)
  exact ⟨put.1, kept.trans put.2, freemap⟩

theorem sfs_sync_freemap_ensures :
    Succeeds sfsSyncFreemap fs (fun _ after => Consistent after ∧ Kept fs after) := by
  refine Ensures.bind_done rfl ?_
  split
  · refine (sfs_freemapio_write_ensures consistent).bind ?_
    rintro _ after ⟨consistent', kept⟩
    refine ensures_change ⟨?_, kept.vnodes, kept.refs, kept.alike⟩
    exact consistent'.same ⟨rfl, rfl, rfl, rfl, rfl⟩ rfl
      (table_freemap consistent'.table after.freemap false)
  · exact ensures_pure ⟨consistent, Kept.refl fs⟩

theorem sfs_sync_superblock_ensures :
    Succeeds sfsSyncSuperblock fs (fun _ after => Consistent after ∧ Kept fs after) := by
  refine Ensures.bind_done rfl ?_
  split
  · have owned : Owns (fs.freemap.nbits / 4096) (disk fs) (live fs) .super 0 := rfl
    have put := consistent_put_reserved consistent owned (fun _ => by simp) (fun _ _ => by simp)
      fs.sb.encode
    have table := put.1.table
    refine Ensures.bind_done rfl (Ensures.bind_done
      (writeblock_returns consistent.ready 0 fs.sb.encode consistent.toCore.used_zero.1) ?_)
    refine ensures_change ⟨?_, put.2.vnodes, put.2.refs, put.2.alike⟩
    exact put.1.same ⟨rfl, rfl, rfl, rfl, rfl⟩ rfl
      { table with }
  · exact ensures_pure ⟨consistent, Kept.refl fs⟩

end sync

theorem sfs_sync_vnodes_ensures {fs : Fs} (consistent : Consistent fs) (vnodes : List Ino)
    (held : ∀ ino, ino ∈ vnodes → 0 < references fs ino) :
    Succeeds (sfsSyncVnodes vnodes) fs (fun _ after => Consistent after ∧ SameRefs fs after) := by
  induction vnodes generalizing fs with
  | nil => exact ensures_pure ⟨consistent, fun _ => rfl⟩
  | cons first rest ih =>
    refine Ensures.attempt_bind (sfs_fsync_ensures consistent (held first List.mem_cons_self)) ?_
      nofun
    rintro _ middle ⟨undisturbed, refs⟩
    refine (ih undisturbed.consistent (fun ino member => ?_)).on_return ?_
    · rw [refs.references]
      exact held ino (List.mem_cons_of_mem _ member)
    · rintro _ after ⟨consistent', refs'⟩
      exact ⟨consistent', fun ino => (refs' ino).trans (refs ino)⟩

/-- Writing everything back leaves the files and the references alone. -/
theorem sfs_sync_ensures {fs : Fs} (consistent : Consistent fs) : Succeeds sfsSync fs
      (fun _ after => Consistent after ∧ references after = references fs) := by
  have listed : ∀ ino, ino ∈ fs.vnodes → 0 < references fs ino := fun ino member =>
    (consistent.table.loaded_iff ino).mp ((consistent.table.listed ino).mp member)
  refine Ensures.bind_done rfl ((sfs_sync_vnodes_ensures consistent fs.vnodes listed).bind ?_)
  rintro _ first ⟨consistent₁, refs₁⟩
  refine (sfs_sync_freemap_ensures consistent₁).bind ?_
  rintro _ second ⟨consistent₂, kept₂⟩
  refine (sfs_sync_superblock_ensures consistent₂).on_return ?_
  rintro _ after ⟨consistent₃, kept₃⟩
  exact ⟨consistent₃, by rw [kept₃.refs.references, kept₂.refs.references, refs₁.references]⟩

end Os161.Sfs
