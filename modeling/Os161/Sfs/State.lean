import Os161.Kern.Bitmap
import Os161.Library.Program
import Os161.Sfs.BlockIo
import Os161.Sfs.Volume

/-!
# The mounted file system

The state of a mounted volume: the superblock, the freemap and the loaded vnodes
in memory, and the device. The functions of the file system are programs over it.
They panic, fail with an error number, or return.

What the volume holds is the disk with every loaded inode written back to its
block. Loading an inode, writing it back and dropping a clean one do not change
that disk, so the invariants are stated over it: the accounts, and the order of
the directory. The rest of the invariant is about memory: the table of vnodes, and
that a vnode that is not dirty agrees with its block.
-/
namespace Os161.Sfs

open Os161.Kern Os161.Library Os161.Library.Program Function

/-- The operations table of a vnode. -/
inductive VnodeOps
  | fileops
  | dirops
  deriving DecidableEq

/-- `struct sfs_vnode` with the reference count of its abstract vnode. -/
structure Vnode where
  i : Dinode
  dirty : Bool
  ops : VnodeOps
  refcount : Nat

/-- `struct sfs_fs`, the device it is mounted on, and the kernel's memory: a vnode
is found under its inode number, and `memory` has the answers to the allocations to
come. `vnodesMax` is the room allocated for the vnode table. -/
structure Fs where
  sb : Superblock
  superdirty : Bool
  device : Device
  vnodes : List Ino
  vnodesMax : Nat
  heap : Ino → Option Vnode
  freemap : Bitmap
  freemapdirty : Bool
  memory : Nat → Bool

/-- Programs of the file system. -/
abbrev FsProgram := Program Panic Errno Fs

/-- Hand on what a device operation returned. -/
def deviceResult (fs : Fs) : Except Panic IoDone → Outcome Panic Errno Fs IoDone
  | .error panic => .stop panic
  | .ok io =>
    match io.result with
    | some error => .fail error { fs with device := io.device }
    | none => .done io { fs with device := io.device }

section

variable (rwblock : Driver)

/-- `sfs_readblock`. -/
def readblockBy (block : Ino) : FsProgram Block := do
  let io ← (fun fs => deviceResult fs
    (rwblock fs.device (uioKinit (List.replicate 512 0) (block.toNat * 512) .read)) :
      FsProgram IoDone)
  pure (Block.ofBytes io.uio.delivered)

/-- `sfs_writeblock`. -/
def writeblockBy (block : Ino) (data : Block) : FsProgram PUnit := do
  let _ ← (fun fs => deviceResult fs
    (rwblock fs.device (uioKinit data.bytes (block.toNat * 512) .write)) : FsProgram IoDone)
  pure ()

end

abbrev readblock : Ino → FsProgram Block := readblockBy (sfsRwblock 10)

abbrev writeblock : Ino → Block → FsProgram PUnit := writeblockBy (sfsRwblock 10)

/-- Follow a pointer to a vnode. -/
def vnode (ino : Ino) : FsProgram Vnode := fun fs =>
  match fs.heap ino with
  | some sv => .done sv fs
  | none => .stop .badPointer

/-- Change a vnode through a pointer. -/
def editVnode (ino : Ino) (edit : Vnode → Vnode) : FsProgram PUnit := fun fs =>
  match fs.heap ino with
  | some sv => .done () { fs with heap := update fs.heap ino (some (edit sv)) }
  | none => .stop .badPointer

/-- `kmalloc`, whether it returned memory. -/
def kmalloc : FsProgram Bool := fun fs =>
  .done (fs.memory 0) { fs with memory := fun index => fs.memory (index + 1) }

variable {ino block : Ino} {after before : Fs} {sv : Vnode}

section

variable (fs : Fs)

/-- A vnode is loaded for the inode. -/
def Loaded (ino : Ino) : Prop := (fs.heap ino).isSome

/-- The references to a vnode, none when it is not loaded. -/
def references (ino : Ino) : Nat := ((fs.heap ino).map Vnode.refcount).getD 0

/-- The volume: the disk with every loaded inode written back. -/
def disk : Disk := fun block =>
  match fs.heap block with
  | some sv => sv.i.encode
  | none => fs.device.sectors block.toNat

/-- The linked or loaded files. -/
def live : Ino → Prop := Live (disk fs) (Loaded fs)

/-- A block of the volume whose bit of the freemap is set. -/
def InUse (block : Ino) : Prop :=
  block.toNat < fs.sb.nblocks.toNat ∧ block.toNat < fs.freemap.nbits ∧
    bitmapIsset fs.freemap block.toNat = true

/-- The device never fails and has the size of the volume, and the freemap has a bit
for every block, in whole blocks, with the bits past the volume set. -/
structure Ready (fs : Fs) : Prop where
  answers : fs.device.answers = fun _ => true
  nsect : fs.device.nsect = fs.sb.nblocks.toNat
  small : fs.sb.nblocks.toNat ≤ 131072
  nbits : fs.freemap.nbits = (fs.sb.nblocks.toNat + 4095) / 4096 * 4096
  beyond : ∀ index, fs.sb.nblocks.toNat ≤ index → index < fs.freemap.nbits →
    bitmapIsset fs.freemap index = true

/-- The table lists the loaded vnodes, each is referenced and has the operations of
its type, and one that is not dirty agrees with the disk. -/
structure Table (fs : Fs) : Prop where
  nodup : fs.vnodes.Nodup
  listed : ∀ ino, ino ∈ fs.vnodes ↔ Loaded fs ino
  referenced : ∀ ino sv, fs.heap ino = some sv → 0 < sv.refcount
  ops : ∀ ino sv, fs.heap ino = some sv → (sv.ops = .dirops ↔ sv.i.type = typeDir)
  clean : ∀ ino sv, fs.heap ino = some sv → sv.dirty = false →
    fs.device.sectors ino.toNat = sv.i.encode

/-- The invariant apart from the accounts. -/
structure Standing (fs : Fs) : Prop where
  ready : Ready fs
  table : Table fs
  tidy : Tidy (disk fs) (Loaded fs)

/-- The invariant between the steps of an operation, with the blocks that are
accounted for: all used ones, or all but some that have just been allocated. -/
structure Core (used : Ino → Prop) (fs : Fs) : Prop extends Standing fs where
  books : Accounting (Owns (fs.freemap.nbits / 4096) (disk fs) (live fs)) used
  within : ∀ block, used block → InUse fs block

/-- The same vnodes are loaded, with the same references. -/
def SameRefs (before after : Fs) : Prop :=
  ∀ ino, (after.heap ino).map Vnode.refcount = (before.heap ino).map Vnode.refcount

theorem SameRefs.loaded (refs : SameRefs before after) : Loaded after = Loaded before := by
  funext ino
  have here := refs ino
  unfold Loaded
  cases first : before.heap ino <;> cases second : after.heap ino <;> simp_all

theorem SameRefs.found (refs : SameRefs before after) (found : before.heap ino = some sv) :
    ∃ sv', after.heap ino = some sv' := by
  have here := refs ino
  rw [found] at here
  cases held : after.heap ino with
  | none =>
    rw [held] at here
    cases here
  | some sv' => exact ⟨sv', rfl⟩

theorem SameRefs.references (refs : SameRefs before after) :
    references after = references before := by
  funext ino
  unfold Sfs.references
  rw [refs ino]

/-- What the handling of blocks and contents of regular files leaves alone. -/
structure Kept (before after : Fs) : Prop where
  vnodes : after.vnodes = before.vnodes
  refs : SameRefs before after
  alike : Alike (live before) (disk before) (disk after)

theorem Kept.refl : Kept fs fs := ⟨rfl, fun _ => rfl, Alike.refl⟩

theorem Kept.live (kept : Kept before after) : live after = live before := by
  unfold Sfs.live
  rw [kept.refs.loaded, kept.alike.live_eq]

theorem Kept.trans {middle : Fs} (first : Kept before middle) (second : Kept middle after) :
    Kept before after := by
  have alike := second.alike
  rw [first.live] at alike
  exact ⟨second.vnodes.trans first.vnodes, fun ino => (second.refs ino).trans (first.refs ino),
    first.alike.trans alike⟩

/-- The file system after a block was written to the device. -/
def Fs.put (block : Ino) (data : Block) : Fs :=
  { fs with
    device := { fs.device with
      sectors := update fs.device.sectors block.toNat data } }

/-- The file system after a vnode was changed. -/
def Fs.edited (ino : Ino) (sv : Vnode) : Fs :=
  { fs with heap := update fs.heap ino (some sv) }

variable {fs}

/-- A device that never fails returns its blocks as they stand. -/
theorem readblock_answered (answers : fs.device.answers = fun _ => true) (block : Ino)
    (below : block.toNat < fs.device.nsect) :
    readblock block fs = .done (fs.device.sectors block.toNat) fs := by
  obtain ⟨io, evaluated, returned, same, delivered⟩ :=
    sfs_readblock_returns below answers
  unfold sfsReadblock at evaluated
  simp only [readblockBy, bind, pure, ret, andThen, evaluated, deviceResult, returned, same, delivered,
    Block.ofBytes_bytes]

/-- On a volume that is ready a block is read as it stands on the device. -/
theorem readblock_returns (ready : Ready fs) {block : Ino}
    (below : block.toNat < fs.sb.nblocks.toNat) :
    readblock block fs = .done (fs.device.sectors block.toNat) fs :=
  readblock_answered ready.answers block (by rw [ready.nsect]; exact below)

theorem writeblock_returns (ready : Ready fs) (block : Ino) (data : Block)
    (below : block.toNat < fs.sb.nblocks.toNat) :
    writeblock block data fs = .done () (fs.put block data) := by
  obtain ⟨io, evaluated, returned, _, after⟩ :=
    sfs_writeblock_returns fs.device block data (by rw [ready.nsect]; exact below)
  have answer : fs.device.answers 0 = true := by rw [ready.answers]
  rw [answer, answered_of_succeeds ready.answers] at after
  unfold sfsWriteblock at evaluated
  simp only [writeblockBy, bind, pure, ret, andThen, evaluated, deviceResult, returned, after]
  rfl

theorem vnode_returns (found : fs.heap ino = some sv) : vnode ino fs = .done sv fs := by
  unfold vnode
  rw [found]

theorem edit_vnode_returns (ino : Ino) (edit : Vnode → Vnode) (sv : Vnode)
    (found : fs.heap ino = some sv) :
    editVnode ino edit fs = .done () (fs.edited ino (edit sv)) := by
  unfold editVnode
  rw [found]
  rfl

theorem toNat_ne {other : Ino} (different : block ≠ other) : block.toNat ≠ other.toNat :=
  fun same => different (BitVec.eq_of_toNat_eq same)

/-- Writing a block that no inode is loaded from changes that block of the volume. -/
theorem disk_put (data : Block) (unloaded : fs.heap block = none) :
    disk (fs.put block data) = update (disk fs) block data := by
  funext other
  obtain rfl | same := eq_or_ne other block
  · simp [disk, Fs.put, unloaded]
  · simp [disk, Fs.put, update_of_ne same, update_of_ne (toNat_ne same)]

/-- Writing under a loaded inode does not change the volume. -/
theorem disk_put_loaded (data : Block) (present : Loaded fs block) :
    disk (fs.put block data) = disk fs := by
  funext other
  obtain rfl | same := eq_or_ne other block
  · obtain ⟨sv, found⟩ := Option.isSome_iff_exists.mp present
    simp [disk, Fs.put, found]
  · simp [disk, Fs.put, update_of_ne (toNat_ne same)]

/-- Changing a vnode changes its inode on the volume. -/
theorem disk_edited (fs : Fs) (ino : Ino) (sv : Vnode) :
    disk (fs.edited ino sv) = update (disk fs) ino sv.i.encode := by
  funext other
  obtain rfl | same := eq_or_ne other ino
  · simp [disk, Fs.edited]
  · simp [disk, Fs.edited, update_of_ne same]

theorem loaded_edited (fs : Fs) (ino : Ino) (sv : Vnode) (present : Loaded fs ino) :
    Loaded (fs.edited ino sv) = Loaded fs := by
  funext other
  obtain rfl | same := eq_or_ne other ino
  · simp only [Loaded, Fs.edited, update_self] at *
    simp [present]
  · simp [Loaded, Fs.edited, update_of_ne same]

/-- A table stays in order with one more vnode, or another one, in its place. -/
theorem Table.with_vnode (table : Table fs) (heap : after.heap = update fs.heap ino (some sv))
    (device : after.device = fs.device) (nodup : after.vnodes.Nodup)
    (listed : ∀ other, other ∈ after.vnodes ↔ Loaded after other)
    (ops : sv.ops = .dirops ↔ sv.i.type = typeDir) (referenced : 0 < sv.refcount)
    (clean : sv.dirty = false → fs.device.sectors ino.toNat = sv.i.encode) : Table after := by
  have cases (other : Ino) (sv' : Vnode) (held : after.heap other = some sv') :
      (other = ino ∧ sv' = sv) ∨ fs.heap other = some sv' := by
    rw [heap] at held
    obtain rfl | same := eq_or_ne other ino
    · rw [update_self] at held
      exact Or.inl ⟨rfl, (Option.some.inj held).symm⟩
    · exact Or.inr (by rwa [update_of_ne same] at held)
  refine ⟨nodup, listed, fun other sv' held => ?_, fun other sv' held => ?_,
    fun other sv' held undirtied => ?_⟩
  · rcases cases other sv' held with ⟨_, rfl⟩ | held
    · exact referenced
    · exact table.referenced other sv' held
  · rcases cases other sv' held with ⟨_, rfl⟩ | held
    · exact ops
    · exact table.ops other sv' held
  · rw [device]
    rcases cases other sv' held with ⟨rfl, rfl⟩ | held
    · exact clean undirtied
    · exact table.clean other sv' held undirtied

theorem table_edited (table : Table fs) (ino : Ino) (sv after : Vnode)
    (found : fs.heap ino = some sv) (ops : after.ops = sv.ops) (type : after.i.type = sv.i.type)
    (referenced : 0 < after.refcount)
    (clean : after.dirty = false → fs.device.sectors ino.toNat = after.i.encode) :
    Table (fs.edited ino after) := by
  refine table.with_vnode rfl rfl table.nodup (fun other => ?_) ?_ referenced clean
  · rw [loaded_edited fs ino after (by simp [Loaded, found])]
    exact table.listed other
  · rw [ops, type]
    exact table.ops ino sv found

theorem Ready.put (ready : Ready fs) (block : Ino) (data : Block) : Ready (fs.put block data) :=
  { ready with }

theorem Ready.edited (ready : Ready fs) (ino : Ino) (sv : Vnode) : Ready (fs.edited ino sv) :=
  { ready with }

/-- The table after a block was written that no inode is loaded from. -/
theorem table_put (table : Table fs) (data : Block) (unloaded : fs.heap block = none) :
    Table (fs.put block data) := by
  refine { table with clean := fun ino sv held undirtied => ?_ }
  have held : fs.heap ino = some sv := held
  have different : ino ≠ block := by
    intro same
    rw [same, unloaded] at held
    cases held
  simp only [Fs.put, update_of_ne (toNat_ne different)]
  exact table.clean ino sv held undirtied

theorem refs_edited {after : Vnode} (found : fs.heap ino = some sv)
    (refs : after.refcount = sv.refcount) : SameRefs fs (fs.edited ino after) := by
  intro other
  obtain rfl | same := eq_or_ne other ino
  · simp [Fs.edited, update_self, found, refs]
  · simp [Fs.edited, update_of_ne same]

theorem kept_edited {after : Vnode} (found : fs.heap ino = some sv)
    (refs : after.refcount = sv.refcount)
    (alike : Alike (live fs) (disk fs) (update (disk fs) ino after.i.encode)) :
    Kept fs (fs.edited ino after) :=
  ⟨rfl, refs_edited found refs, by rw [disk_edited]; exact alike⟩

theorem live_of_loaded (found : fs.heap ino = some sv) : live fs ino :=
  Or.inr (Or.inr (by simp [Loaded, found]))

theorem root_live (fs : Fs) : live fs rootdirIno := Or.inl rfl

end

section

variable {used : Ino → Prop} {fs : Fs} (core : Core used fs)

include core

/-- No inode is loaded from a block that is not accounted for. -/
theorem Core.unloaded (unused : ¬ used block) : fs.heap block = none := by
  cases found : fs.heap block with
  | none => rfl
  | some sv =>
    exact absurd (core.books.used_of_owns (.inode block) ⟨live_of_loaded found, rfl⟩) unused

/-- No inode is loaded from a block that a file points to. -/
theorem Core.unloaded_pointer (pointed : Pointer) (alive : live fs ino)
    (present : pointer (disk fs) ino pointed ≠ 0) :
    fs.heap (pointer (disk fs) ino pointed) = none := by
  cases found : fs.heap (pointer (disk fs) ino pointed) with
  | none => rfl
  | some sv =>
    have inode : Owns (fs.freemap.nbits / 4096) (disk fs) (live fs)
        (.inode (pointer (disk fs) ino pointed)) (pointer (disk fs) ino pointed) :=
      ⟨live_of_loaded found, rfl⟩
    cases core.books.unique _ (.block ino pointed) _ inode ⟨alive, present, rfl⟩

theorem Core.used_pointer (pointed : Pointer) (alive : live fs ino)
    (present : pointer (disk fs) ino pointed ≠ 0) : used (pointer (disk fs) ino pointed) :=
  core.books.used_of_owns (.block ino pointed) ⟨alive, present, rfl⟩

theorem Core.used_zero : used 0 :=
  core.books.used_of_owns .super rfl

/-- A live file has an inode of its own, so its number is not zero. -/
theorem Core.nonzero (alive : live fs ino) : ino ≠ 0 :=
  core.books.apart (.inode ino) .super ⟨alive, rfl⟩ rfl (by simp)

end

/-- The invariant after a step that keeps the directory and the table. -/
theorem Standing.carry {used : Ino → Prop} {fs : Fs} (standing : Standing fs) (kept : Kept fs after)
    (ready : Ready after) (table : Table after) (nbits : after.freemap.nbits = fs.freemap.nbits)
    (books : Accounting (Owns (fs.freemap.nbits / 4096) (disk after) (live fs)) used)
    (within : ∀ block, used block → InUse after block) : Core used after := by
  refine ⟨⟨ready, table, ?_⟩, ?_, within⟩
  · rw [kept.refs.loaded]
    exact kept.alike.tidy standing.tidy
  · rw [nbits, kept.live]
    exact books

theorem node_disk {fs : Fs} (found : fs.heap ino = some sv) : node (disk fs) ino = sv.i := by
  simp [node, disk, found, Dinode.decode_encode]

end Os161.Sfs
