import Os161.Sfs.Itrunc
import Os161.Sfs.Entries
import Mathlib.Data.List.Nodup

/-!
# Vnodes and inodes

The life of a vnode: it is loaded from its inode or made for a new one, referenced
and released, and reclaimed when the last reference goes. Reclaiming writes the
inode back, and erases the file if no entry names it any more.

Between operations the accounts are in order and every link count is right;
`Consistent` says both. Loading, writing back and dropping a linked file do not
change the volume. Making a file adds an inode that nothing names, and erasing one
takes such an inode away, with all its blocks.
-/
namespace Os161.Sfs

open Os161.Kern Os161.Library Os161.Library.Program Function
open Ensures (bind_done attempt_bind bind_failed)

def sfsSyncInode (ino : Ino) : FsProgram PUnit := do
  let sv ← vnode ino
  if sv.dirty = true then do
    writeblock ino sv.i.encode
    editVnode ino (fun sv => { sv with dirty := false })
  else pure ()

/-- The last part of `sfs_reclaim`: the vnode is taken from the table and freed. -/
def sfsReclaimRemove (ino : Ino) : FsProgram PUnit := do
  let vnodes ← inspect Fs.vnodes
  check (ino ∈ vnodes) .notInPool
  let sv ← vnode ino
  check (sv.refcount = 1) .assertion
  change (fun fs => { fs with
    vnodes := fs.vnodes.erase ino
    heap := update fs.heap ino none })

/-- A part of `sfs_reclaim` that is for files without links. -/
def whenUnlinked (sv : Vnode) (erase : FsProgram PUnit) : FsProgram PUnit :=
  if sv.i.linkcount = 0 then erase else pure ()

def sfsReclaim (ino : Ino) : FsProgram PUnit := do
  let sv ← vnode ino
  if sv.refcount ≠ 1 then do
    check (1 < sv.refcount) .assertion
    editVnode ino (fun sv => { sv with refcount := sv.refcount - 1 })
    failWith .EBUSY
  else do
    whenUnlinked sv (sfsItrunc ino 0)
    sfsSyncInode ino
    let sv ← vnode ino
    whenUnlinked sv (sfsBfree ino)
    sfsReclaimRemove ino

def vnodeIncref (ino : Ino) : FsProgram PUnit :=
  editVnode ino (fun sv => { sv with refcount := sv.refcount + 1 })

/-- `vnode_decref`. An error of the reclaim is only printed. -/
def vnodeDecref (ino : Ino) : FsProgram PUnit := do
  let sv ← vnode ino
  check (0 < sv.refcount) .assertion
  if 1 < sv.refcount then editVnode ino (fun sv => { sv with refcount := sv.refcount - 1 })
  else do
    let _ ← attempt (sfsReclaim ino)
    pure ()

/-- The search of the vnode table in `sfs_loadvnode`. -/
def sfsFindvnode (ino : Ino) : List Ino → FsProgram Bool
  | [] => pure false
  | loaded :: rest => do
    let used ← sfsBused loaded
    check (used = true) .unallocatedInode
    if loaded = ino then pure true else sfsFindvnode ino rest

/-- The operations table for the type of an inode. -/
def chooseOps (i : Dinode) (dirty : Bool) : Except Panic Vnode :=
  if i.type = typeFile then .ok ⟨i, dirty, .fileops, 1⟩
  else if i.type = typeDir then .ok ⟨i, dirty, .dirops, 1⟩
  else .error .invalidInodeType

/-- The vnode `sfs_loadvnode` makes of an inode. A type is forced when the inode is
new. -/
def makeVnode (i : Dinode) (forcetype : BitVec 16) : Except Panic Vnode :=
  if forcetype ≠ typeInval then
    if i.type = typeInval then chooseOps { i with type := forcetype } true else .error .assertion
  else chooseOps i false

/-- The new size of an array that is to have room for a number of elements. -/
def arrayGrow (num newmax : Nat) : Nat :=
  if newmax < num then arrayGrow num (if newmax = 0 then 4 else newmax * 2) else newmax
termination_by num - newmax
decreasing_by
  split <;> omega

/-- `array_preallocate` for the vnode table. -/
def arrayPreallocate (num : Nat) : FsProgram PUnit := do
  let max ← inspect Fs.vnodesMax
  if max < num then do
    let newptr ← kmalloc
    if newptr = true then change (fun fs => { fs with vnodesMax := arrayGrow num fs.vnodesMax })
    else failWith .ENOMEM
  else pure ()

def vnodearrayAdd (ino : Ino) (sv : Vnode) : FsProgram PUnit := do
  let num ← inspect (fun fs => fs.vnodes.length)
  arrayPreallocate (num + 1)
  change (fun fs => { fs with
    vnodes := fs.vnodes ++ [ino]
    heap := update fs.heap ino (some sv) })

def sfsLoadvnode (ino : Ino) (forcetype : BitVec 16) : FsProgram PUnit := do
  let vnodes ← inspect Fs.vnodes
  let found ← sfsFindvnode ino vnodes
  if found = true then do
    check (forcetype = typeInval) .assertion
    vnodeIncref ino
  else do
    let sv ← kmalloc
    if sv = true then do
      let used ← sfsBused ino
      check (used = true) .unallocatedLoad
      let data ← readblock ino
      match makeVnode (Dinode.decode data) forcetype with
      | .error panic => stopWith panic
      | .ok sv => vnodearrayAdd ino sv
    else failWith .ENOMEM

def sfsMakeobj (type : BitVec 16) : FsProgram Ino := do
  let ino ← sfsBalloc
  match ← attempt (sfsLoadvnode ino type) with
  | .ok _ => pure ino
  | .error error => do
    sfsBfree ino
    failWith error

def sfsGetroot : FsProgram Ino := do
  sfsLoadvnode rootdirIno typeInval
  let sv ← vnode rootdirIno
  if sv.i.type ≠ typeDir then failWith .EINVAL else pure rootdirIno

/-- The invariant between operations. -/
structure Consistent (fs : Fs) : Prop extends Core (InUse fs) fs where
  counted : Counted (disk fs) (Loaded fs)

/-- Two states have the same volume, and may differ in memory. -/
structure SameVolume (before after : Fs) : Prop where
  volume : disk after = disk before
  sb : after.sb = before.sb
  freemap : after.freemap = before.freemap
  answers : after.device.answers = before.device.answers
  nsect : after.device.nsect = before.device.nsect

variable {fs after before : Fs} {ino : Ino}

theorem SameVolume.ready (same : SameVolume before after) (ready : Ready before) : Ready after := by
  constructor
  · rw [same.answers]
    exact ready.answers
  · rw [same.nsect, same.sb]
    exact ready.nsect
  · rw [same.sb]
    exact ready.small
  · rw [same.freemap, same.sb]
    exact ready.nbits
  · rw [same.freemap, same.sb]
    exact ready.beyond

theorem SameVolume.in_use (same : SameVolume before after) : InUse after = InUse before := by
  unfold InUse
  rw [same.sb, same.freemap]

/-- The invariant only depends on the volume, on which files are live, and on the
table. -/
theorem Core.same {used : Ino → Prop} (core : Core used fs) (same : SameVolume fs after)
    (files : live after = live fs) (table : Table after) : Core used after := by
  refine ⟨⟨same.ready core.ready, table, ?_⟩, ?_, ?_⟩
  · rw [same.volume]
    refine core.tidy.reloaded (fun ino alive => Or.inl ?_)
    have alive : live after ino := by
      unfold live
      rw [same.volume]
      exact alive
    rw [files] at alive
    exact alive
  · rw [same.freemap, same.volume, files]
    exact core.books
  · rw [same.in_use]
    exact core.within

theorem Consistent.same (consistent : Consistent fs) (same : SameVolume fs after)
    (files : live after = live fs) (table : Table after) : Consistent after := by
  have core := consistent.toCore.same same files table
  rw [← same.in_use] at core
  refine ⟨core, fun ino alive => ?_⟩
  have alive : live after ino := alive
  rw [files] at alive
  rw [same.volume]
  exact consistent.counted ino alive

/-- The invariant still holds, the volume is the same and so are its files. -/
structure Undisturbed (before after : Fs) : Prop where
  consistent : Consistent after
  volume : disk after = disk before
  files : live after = live before

theorem live_of_same (volume : disk after = disk fs) (loaded : Loaded after = Loaded fs) :
    live after = live fs := by
  unfold live
  rw [volume, loaded]

theorem Table.loaded_iff (table : Table fs) (ino : Ino) :
    Loaded fs ino ↔ 0 < references fs ino := by
  unfold Loaded references
  cases found : fs.heap ino with
  | none => simp
  | some sv => simpa using table.referenced ino sv found

theorem references_edited (fs : Fs) (ino : Ino) (sv : Vnode) :
    references (fs.edited ino sv) = update (references fs) ino sv.refcount := by
  funext other
  obtain rfl | same := eq_or_ne other ino
  · simp [references, Fs.edited]
  · simp [references, Fs.edited, update_of_ne same]

section vnodes

variable {fs : Fs} {ino : Ino} {sv : Vnode} (found : fs.heap ino = some sv)

include found

theorem references_found : references fs ino = sv.refcount := by
  simp [references, found]

theorem disk_found : disk fs ino = sv.i.encode := by
  simp [disk, found]

/-- Changing a vnode apart from its inode leaves the volume alone. -/
theorem same_edited (after : Vnode) (inode : after.i = sv.i) : SameVolume fs (fs.edited ino after) := by
  refine ⟨?_, rfl, rfl, rfl, rfl⟩
  rw [disk_edited, inode, ← disk_found found, update_eq_self]

/-- Changing the count of references keeps the invariant, as long as there is one. -/
theorem consistent_recounted (consistent : Consistent fs) (refcount : Nat)
    (positive : 0 < refcount) : Consistent (fs.edited ino { sv with refcount := refcount }) := by
  have same := same_edited found { sv with refcount := refcount } rfl
  have loaded := loaded_edited fs ino { sv with refcount := refcount } (by simp [Loaded, found])
  exact consistent.same same (live_of_same same.volume loaded)
    (table_edited consistent.table ino sv _ found rfl rfl positive
      (consistent.table.clean ino sv found))

theorem vnode_incref_ensures (consistent : Consistent fs) : Succeeds (vnodeIncref ino) fs
      (fun _ after => Undisturbed fs after ∧
        references after = update (references fs) ino (references fs ino + 1)) := by
  have same := same_edited found { sv with refcount := sv.refcount + 1 } rfl
  have loaded := loaded_edited fs ino { sv with refcount := sv.refcount + 1 } (by simp [Loaded, found])
  refine ensures_of_done (edit_vnode_returns ino _ sv found) ⟨⟨?_, same.volume, ?_⟩, ?_⟩
  · exact consistent_recounted found consistent (sv.refcount + 1) (Nat.succ_pos _)
  · exact live_of_same same.volume loaded
  · rw [references_edited, references_found found]

/-- Writing an inode back leaves the volume and the table alone. -/
theorem sfs_sync_inode_ensures (ready : Ready fs) (table : Table fs)
    (below : ino.toNat < fs.sb.nblocks.toNat) :
    Succeeds (sfsSyncInode ino) fs
      (fun _ after => SameVolume fs after ∧ Table after ∧ Kept fs after ∧
        ∃ sv', after.heap ino = some sv' ∧ sv'.i = sv.i ∧ sv'.dirty = false) := by
  have present : Loaded fs ino := by simp [Loaded, found]
  refine bind_done (vnode_returns found) ?_
  by_cases dirty : sv.dirty = true
  · rw [if_pos dirty]
    refine bind_done (writeblock_returns ready ino sv.i.encode below) ?_
    have written := disk_put_loaded sv.i.encode present
    have found' : (fs.put ino sv.i.encode).heap ino = some sv := found
    have same := same_edited found' { sv with dirty := false } rfl
    have volume : SameVolume fs ((fs.put ino sv.i.encode).edited ino { sv with dirty := false }) :=
      ⟨same.volume.trans written, rfl, rfl, rfl, rfl⟩
    refine ensures_of_done (edit_vnode_returns ino _ sv found)
      ⟨volume, ?_, ⟨rfl, ?_, ?_⟩, _, update_self _ _ _, rfl, rfl⟩
    · refine table_edited ?_ ino sv _ found rfl rfl (table.referenced ino sv found) (fun _ => ?_)
      · refine { table with clean := fun other sv' held clean => ?_ }
        obtain rfl | equal := eq_or_ne other ino
        · rw [show fs.heap other = some sv' from held] at found
          cases found
          exact update_self _ _ _
        · simp only [Fs.put, update_of_ne (toNat_ne equal)]
          exact table.clean other sv' held clean
      · exact update_self _ _ _
    · exact refs_edited found rfl
    · rw [volume.volume]
      exact Alike.refl
  · rw [if_neg dirty]
    exact ensures_pure ⟨⟨rfl, rfl, rfl, rfl, rfl⟩, table, Kept.refl fs, sv, found, rfl,
      Bool.eq_false_iff.mpr dirty⟩

end vnodes

/-- The directory and the link counts are as they were. -/
structure Steady (before after : Fs) : Prop where
  directory : directory (disk after) = directory (disk before)
  linkcount : ∀ ino, live before ino →
    (node (disk after) ino).linkcount = (node (disk before) ino).linkcount

theorem steady_of_same (volume : disk after = disk before) : Steady before after := by
  constructor
  · rw [volume]
  · intro ino _
    rw [volume]

theorem Kept.steady (kept : Kept before after) : Steady before after :=
  ⟨kept.alike.directory, kept.alike.linkcount⟩

theorem Steady.trans {middle : Fs} (first : Steady before middle)
    (grows : ∀ ino, live before ino → live middle ino) (second : Steady middle after) :
    Steady before after :=
  ⟨second.directory.trans first.directory,
    fun ino alive => (second.linkcount ino (grows ino alive)).trans (first.linkcount ino alive)⟩

/-- The link counts stay right while the directory and the counts are kept. -/
theorem Consistent.kept (consistent : Consistent fs) (sound : Sound after) (kept : Kept fs after) :
    Consistent after := by
  refine ⟨sound, ?_⟩
  rw [kept.refs.loaded]
  exact kept.alike.counted consistent.counted

/-- The file system after a vnode was taken from the table. -/
def Fs.unloaded (fs : Fs) (ino : Ino) : Fs :=
  { fs with
    vnodes := fs.vnodes.erase ino
    heap := update fs.heap ino none }

theorem references_unloaded (fs : Fs) (ino : Ino) :
    references (fs.unloaded ino) = update (references fs) ino 0 := by
  funext other
  obtain rfl | same := eq_or_ne other ino
  · simp [references, Fs.unloaded]
  · simp [references, Fs.unloaded, update_of_ne same]

theorem loaded_unloaded (fs : Fs) (ino other : Ino) :
    Loaded (fs.unloaded ino) other ↔ Loaded fs other ∧ other ≠ ino := by
  obtain rfl | same := eq_or_ne other ino
  · simp [Loaded, Fs.unloaded]
  · simp [Loaded, Fs.unloaded, same]

theorem table_unloaded (table : Table fs) (ino : Ino) : Table (fs.unloaded ino) := by
  have old : ∀ other sv, (fs.unloaded ino).heap other = some sv → fs.heap other = some sv := by
    intro other sv held
    obtain rfl | same := eq_or_ne other ino
    · simp [Fs.unloaded] at held
    · simpa only [Fs.unloaded, update_of_ne same] using held
  refine ⟨table.nodup.erase ino, fun other => ?_, fun other sv held => ?_, fun other sv held => ?_,
    fun other sv held => ?_⟩
  · rw [loaded_unloaded, ← table.listed]
    exact (table.nodup.mem_erase_iff).trans and_comm
  · exact table.referenced other sv (old other sv held)
  · exact table.ops other sv (old other sv held)
  · exact table.clean other sv (old other sv held)

section reclaim

variable {fs : Fs} {ino : Ino} {sv : Vnode} (found : fs.heap ino = some sv)

include found

/-- Taking a clean vnode from the table leaves the volume alone. -/
theorem same_unloaded (table : Table fs) (clean : sv.dirty = false) :
    SameVolume fs (fs.unloaded ino) := by
  refine ⟨?_, rfl, rfl, rfl, rfl⟩
  funext other
  obtain rfl | same := eq_or_ne other ino
  · have written := table.clean other sv found clean
    simp [disk, Fs.unloaded, update_self, found, written]
  · simp [disk, Fs.unloaded, update_of_ne same]

theorem sfs_reclaim_remove_returns (table : Table fs) (single : sv.refcount = 1) :
    sfsReclaimRemove ino fs = .done () (fs.unloaded ino) := by
  have member : ino ∈ fs.vnodes := (table.listed ino).mpr (by simp [Loaded, found])
  have looked := vnode_returns found
  simp only [sfsReclaimRemove, bind, andThen, inspect, check, member, if_true, looked, single, change]
  rfl

section

variable (consistent : Consistent fs)

include consistent

/-- A file that is linked, or the root directory, stays live without its vnode. -/
theorem consistent_unloaded (clean : sv.dirty = false)
    (linked : sv.i.linkcount ≠ 0) : Consistent (fs.unloaded ino) := by
  have same := same_unloaded found consistent.table clean
  have alive := live_of_loaded found
  refine consistent.same same ?_ (table_unloaded consistent.table ino)
  have stays : Live (disk fs) (Loaded (fs.unloaded ino)) ino := by
    by_cases root : ino = rootdirIno
    · exact Or.inl root
    have count := consistent.counted ino alive root
    rw [node_disk found] at count
    have positive : 0 < sv.i.linkcount.toNat := by
      rcases Nat.eq_zero_or_pos sv.i.linkcount.toNat with zero | positive
      · exact absurd (BitVec.eq_of_toNat_eq zero) linked
      · exact positive
    exact Or.inr (Or.inl (named_of_links (consistent.toCore.nonzero alive) (count ▸ positive)))
  funext other
  unfold live at *
  rw [same.volume]
  apply propext
  constructor
  · rintro (root | named | loaded)
    · exact Or.inl root
    · exact Or.inr (Or.inl named)
    · exact Or.inr (Or.inr ((loaded_unloaded fs ino other).mp loaded).1)
  · rintro (root | named | loaded)
    · exact Or.inl root
    · exact Or.inr (Or.inl named)
    · by_cases equal : other = ino
      · exact equal ▸ stays
      · exact Or.inr (Or.inr ((loaded_unloaded fs ino other).mpr ⟨loaded, equal⟩))

/-- An inode without links and blocks is erased together with its vnode. -/
theorem consistent_erased (clean : sv.dirty = false)
    (unlinked : sv.i.linkcount = 0) (empty : ∀ place, pointer (disk fs) ino place = 0) :
    Consistent ((fs.freed ino).unloaded ino) := by
  have alive := live_of_loaded found
  have regular : ino ≠ rootdirIno := by
    intro root
    have linked := consistent.tidy.rootLinked
    rw [← root, node_disk found, unlinked] at linked
    cases linked
  have unnamed : ¬ Named (directory (disk fs)) ino := by
    intro named
    have count := consistent.counted ino alive regular
    rw [node_disk found, unlinked] at count
    exact absurd (links_of_named named) (by rw [← count]; decide)
  have used : InUse fs ino := consistent.books.used_of_owns (.inode ino) ⟨alive, rfl⟩
  have standing := standing_freed consistent.toStanding used.1
  have found' : (fs.freed ino).heap ino = some sv := found
  have same := same_unloaded found' standing.table clean
  have files : ∀ other, live ((fs.freed ino).unloaded ino) other ↔ live fs other ∧ other ≠ ino := by
    intro other
    unfold live Live
    rw [same.volume, loaded_unloaded]
    constructor
    · rintro (rfl | named | ⟨loaded, different⟩)
      · exact ⟨Or.inl rfl, Ne.symm regular⟩
      · exact ⟨Or.inr (Or.inl named), fun equal => unnamed (equal ▸ named)⟩
      · exact ⟨Or.inr (Or.inr loaded), different⟩
    · rintro ⟨root | named | loaded, different⟩
      · exact Or.inl root
      · exact Or.inr (Or.inl named)
      · exact Or.inr (Or.inr ⟨loaded, different⟩)
  have volume : disk ((fs.freed ino).unloaded ino) = disk fs := same.volume
  have fewer : ∀ other, Live (disk fs) (Loaded ((fs.freed ino).unloaded ino)) other →
      Live (disk fs) (Loaded fs) other := by
    intro other alive
    have alive : live ((fs.freed ino).unloaded ino) other := by
      unfold live
      rw [volume]
      exact alive
    exact ((files other).mp alive).1
  refine ⟨⟨⟨same.ready standing.ready, table_unloaded standing.table ino, ?_⟩, ?_,
    fun _ marked => marked⟩, ?_⟩
  · rw [volume]
    exact consistent.tidy.reloaded (fun other alive => Or.inl (fewer other alive))
  · rw [volume]
    exact erase consistent.books alive empty files (in_use_freed fs ino)
  · rw [volume]
    intro other alive
    exact consistent.counted other (fewer other alive)

theorem truncate_unlinked_ensures : Succeeds (whenUnlinked sv (sfsItrunc ino 0)) fs
      (fun _ middle => Sound middle ∧ Kept fs middle ∧
        (sv.i.linkcount = 0 → ∀ place, pointer (disk middle) ino place = 0)) := by
  unfold whenUnlinked
  by_cases unlinked : sv.i.linkcount = 0
  · rw [if_pos unlinked]
    have regular : ino ≠ rootdirIno := by
      intro root
      have linked := consistent.tidy.rootLinked
      rw [← root, node_disk found, unlinked] at linked
      cases linked
    exact (sfs_itrunc_ensures consistent.toCore regular found 0).on_return
      (fun _ _ truncated => ⟨truncated.1, truncated.2.1, fun _ => truncated.2.2 rfl⟩)
  · rw [if_neg unlinked]
    exact ensures_pure ⟨consistent.toCore, Kept.refl fs, fun none => absurd none unlinked⟩

/-- Reclaiming takes the vnode of the last reference from the table, and leaves the
directory and the link counts alone. -/
theorem sfs_reclaim_ensures (single : sv.refcount = 1) : Succeeds (sfsReclaim ino) fs
      (fun _ after => Consistent after ∧ Steady fs after ∧
        references after = update (references fs) ino 0) := by
  have alive := live_of_loaded found
  refine bind_done (vnode_returns found) ?_
  rw [if_neg (not_not.mpr single)]
  refine (truncate_unlinked_ensures found consistent).bind ?_
  rintro _ first ⟨sound₁, kept₁, empty⟩
  obtain ⟨sv₁, found₁⟩ := kept₁.refs.found found
  have used₁ : InUse first ino := sound₁.books.used_of_owns (.inode ino)
    ⟨live_of_loaded found₁, rfl⟩
  refine (sfs_sync_inode_ensures found₁ sound₁.ready sound₁.table used₁.1).bind ?_
  rintro _ second ⟨same, table, kept₂, sv₂, found₂, inode, clean⟩
  have kept := kept₁.trans kept₂
  have consistent₂ : Consistent second :=
    (consistent.kept sound₁ kept₁).same same (live_of_same same.volume kept₂.refs.loaded) table
  have linkcount : sv₂.i.linkcount = sv.i.linkcount := by
    rw [inode, ← node_disk found₁, kept₁.alike.linkcount ino alive, node_disk found]
  have single₂ : sv₂.refcount = 1 := by
    have refs := kept.refs ino
    rw [found₂, found, Option.map_some, Option.map_some, single] at refs
    exact Option.some.inj refs
  refine bind_done (vnode_returns found₂) ?_
  unfold whenUnlinked
  rw [linkcount]
  by_cases unlinked : sv.i.linkcount = 0
  · rw [if_pos unlinked]
    have used₂ : InUse second ino := consistent₂.books.used_of_owns (.inode ino)
      ⟨live_of_loaded found₂, rfl⟩
    have found₃ : (second.freed ino).heap ino = some sv₂ := found₂
    have table₃ := table_freemap table (second.freemap.clear ino.toNat) true
    refine bind_done (sfs_bfree_returns used₂) ?_
    refine ensures_of_done (sfs_reclaim_remove_returns found₃ table₃ single₂) ⟨?_, ?_, ?_⟩
    · refine consistent_erased found₂ consistent₂ clean (linkcount.trans unlinked) (fun place => ?_)
      rw [same.volume]
      exact empty unlinked place
    · refine kept.steady.trans (fun other old => ?_)
        (steady_of_same (same_unloaded found₃ table₃ clean).volume)
      rw [kept.live]
      exact old
    · rw [references_unloaded]
      exact congrArg (fun refs => update refs ino 0) kept.refs.references
  · rw [if_neg unlinked]
    refine bind_done rfl ?_
    refine ensures_of_done (sfs_reclaim_remove_returns found₂ table single₂) ⟨?_, ?_, ?_⟩
    · exact consistent_unloaded found₂ consistent₂ clean (fun none => unlinked (linkcount ▸ none))
    · refine kept.steady.trans (fun other old => ?_)
        (steady_of_same (same_unloaded found₂ table clean).volume)
      rw [kept.live]
      exact old
    · rw [references_unloaded, kept.refs.references]

/-- Letting go of a reference leaves the directory and the link counts alone. -/
theorem vnode_decref_ensures : Succeeds (vnodeDecref ino) fs
      (fun _ after => Consistent after ∧ Steady fs after ∧
        references after = update (references fs) ino (references fs ino - 1)) := by
  have positive := consistent.table.referenced ino sv found
  have count := references_found found
  refine bind_done (vnode_returns found) ?_
  refine bind_done (check_passes positive) ?_
  split
  · refine ensures_of_done (edit_vnode_returns ino _ sv found) ⟨?_, ?_, ?_⟩
    · exact consistent_recounted found consistent (sv.refcount - 1) (by omega)
    · exact steady_of_same (same_edited found { sv with refcount := sv.refcount - 1 } rfl).volume
    · rw [references_edited, count]
  · have single : sv.refcount = 1 := by omega
    refine attempt_bind (sfs_reclaim_ensures found consistent single) ?_
      nofun
    rintro _ after ⟨consistent', steady, refs⟩
    refine ensures_pure ⟨consistent', steady, ?_⟩
    rw [refs, count, single]

end

end reclaim

/-- The file system after memory was asked for. -/
def Fs.grown (fs : Fs) (memory : Nat → Bool) (vnodesMax : Nat) : Fs :=
  { fs with memory := memory, vnodesMax := vnodesMax }

theorem table_grown (table : Table fs) (memory : Nat → Bool) (vnodesMax : Nat) :
    Table (fs.grown memory vnodesMax) :=
  { table with }

/-- The file system after a vnode was entered in the table. -/
def Fs.entered (fs : Fs) (ino : Ino) (sv : Vnode) : Fs :=
  { fs with
    vnodes := fs.vnodes ++ [ino]
    heap := update fs.heap ino (some sv) }

attribute [local simp] Loaded Fs.unloaded references Fs.entered

theorem loaded_entered (fs : Fs) (ino : Ino) (sv : Vnode) (other : Ino) :
    Loaded (fs.entered ino sv) other ↔ Loaded fs other ∨ other = ino := by
  obtain rfl | same := eq_or_ne other ino
  · simp
  · simp [same]

theorem references_entered (fs : Fs) (ino : Ino) (sv : Vnode) :
    references (fs.entered ino sv) = update (references fs) ino sv.refcount :=
  references_edited fs ino sv

theorem table_entered (table : Table fs) (absent : fs.heap ino = none) {sv : Vnode}
    (ops : sv.ops = .dirops ↔ sv.i.type = typeDir) (referenced : 0 < sv.refcount)
    (clean : sv.dirty = false → fs.device.sectors ino.toNat = sv.i.encode) :
    Table (fs.entered ino sv) := by
  have unlisted : ino ∉ fs.vnodes := by
    rw [table.listed, Loaded, absent]
    simp
  refine table.with_vnode rfl rfl ?_ (fun other => ?_) ops referenced clean
  · have concat := (List.nodup_concat fs.vnodes ino).mpr ⟨unlisted, table.nodup⟩
    rw [List.concat_eq_append] at concat
    exact concat
  · rw [loaded_entered, ← table.listed]
    simp

theorem sfs_findvnode_returns (fs : Fs) (ino : Ino) (vnodes : List Ino)
    (used : ∀ other, other ∈ vnodes → InUse fs other) :
    sfsFindvnode ino vnodes fs = .done (decide (ino ∈ vnodes)) fs := by
  induction vnodes with
  | nil => rfl
  | cons first rest ih =>
    have here := sfs_bused_returns (used first List.mem_cons_self)
    have there := ih (fun other member => used other (List.mem_cons_of_mem _ member))
    simp only [sfsFindvnode, bind, andThen, here, check, if_true]
    by_cases same : first = ino
    · simp [same, pure, ret]
    · rw [if_neg same, there]
      simp [Ne.symm same]

theorem array_preallocate_ensures {fs : Fs} {num : Nat} : Ensures False (arrayPreallocate num) fs
      (fun _ after => ∃ memory vnodesMax, after = fs.grown memory vnodesMax)
      (fun _ after => ∃ memory vnodesMax, after = fs.grown memory vnodesMax) := by
  refine bind_done rfl ?_
  split
  · refine bind_done rfl ?_
    split
    · exact ensures_change ⟨_, _, rfl⟩
    · exact ensures_fail ⟨_, _, rfl⟩
  · exact ensures_pure ⟨_, _, rfl⟩

/-- An inode that is not in the table is read and entered, or memory runs out. -/
theorem sfs_loadvnode_absent (ready : Ready fs) (used : InUse fs ino)
    (listed : ∀ other, other ∈ fs.vnodes → InUse fs other) (absent : ino ∉ fs.vnodes)
    {forcetype : BitVec 16} {sv : Vnode}
    (made : makeVnode (Dinode.decode (fs.device.sectors ino.toNat)) forcetype = .ok sv) :
    Ensures False (sfsLoadvnode ino forcetype) fs
      (fun _ after => ∃ memory vnodesMax, after = (fs.grown memory vnodesMax).entered ino sv)
      (fun _ after => ∃ memory vnodesMax, after = fs.grown memory vnodesMax) := by
  have search := sfs_findvnode_returns fs ino fs.vnodes listed
  rw [decide_eq_false absent] at search
  refine bind_done rfl (bind_done search ?_)
  refine bind_done rfl ?_
  split
  · have used' : InUse (fs.grown (fun index => fs.memory (index + 1)) fs.vnodesMax) ino := used
    have ready' : Ready (fs.grown (fun index => fs.memory (index + 1)) fs.vnodesMax) :=
      { ready with }
    refine bind_done (sfs_bused_returns used') (bind_done (check_passes rfl) ?_)
    refine bind_done (readblock_returns ready' used'.1) ?_
    have made' : makeVnode (Dinode.decode ((fs.grown (fun index => fs.memory (index + 1))
        fs.vnodesMax).device.sectors ino.toNat)) forcetype = .ok sv := made
    rw [made']
    refine bind_done rfl ((array_preallocate_ensures).bind ?_)
    rintro _ middle ⟨memory, vnodesMax, rfl⟩
    exact ensures_change ⟨memory, vnodesMax, rfl⟩
  · exact ensures_fail ⟨_, _, rfl⟩

theorem undisturbed_grown (consistent : Consistent fs) (memory : Nat → Bool) (vnodesMax : Nat) :
    Undisturbed fs (fs.grown memory vnodesMax) :=
  ⟨consistent.same ⟨rfl, rfl, rfl, rfl, rfl⟩ rfl (table_grown consistent.table memory vnodesMax),
    rfl, rfl⟩

theorem Core.listed {used : Ino → Prop} (core : Core used fs) (ino : Ino)
    (member : ino ∈ fs.vnodes) :
    InUse fs ino := by
  obtain ⟨sv, found⟩ := Option.isSome_iff_exists.mp ((core.table.listed ino).mp member)
  exact core.within ino (core.books.used_of_owns (.inode ino) ⟨live_of_loaded found, rfl⟩)

theorem make_vnode_of_live (consistent : Consistent fs) (alive : live fs ino) :
    ∃ sv, makeVnode (node (disk fs) ino) typeInval = .ok sv ∧ sv.i = node (disk fs) ino ∧
      sv.dirty = false ∧ sv.refcount = 1 ∧ (sv.ops = .dirops ↔ sv.i.type = typeDir) := by
  have apart : typeDir ≠ typeFile := by decide
  unfold makeVnode chooseOps
  obtain rfl | root := eq_or_ne ino rootdirIno
  · have type := consistent.tidy.root
    rw [if_neg (not_not.mpr rfl), if_neg (by rw [type]; exact apart), if_pos type]
    exact ⟨_, rfl, rfl, rfl, rfl, fun _ => type, fun _ => rfl⟩
  · have type := consistent.tidy.regular ino alive root
    rw [if_pos type]
    refine ⟨_, rfl, rfl, rfl, rfl, ⟨fun ops => ?_, fun directory => ?_⟩⟩
    · cases ops
    · exact absurd (directory.symm.trans type) apart

/-- Loading a live file takes a reference to it, or fails, and changes nothing else. -/
theorem sfs_loadvnode_ensures (consistent : Consistent fs) (alive : live fs ino) :
    Ensures False (sfsLoadvnode ino typeInval) fs (fun _ after => Undisturbed fs after ∧
        references after = update (references fs) ino (references fs ino + 1))
      (fun _ after => Undisturbed fs after ∧ references after = references fs) := by
  cases held : fs.heap ino with
  | some sv =>
    have member : ino ∈ fs.vnodes := (consistent.table.listed ino).mpr (by simp [held])
    have search := sfs_findvnode_returns fs ino fs.vnodes consistent.toCore.listed
    rw [decide_eq_true member] at search
    refine bind_done rfl (bind_done search ?_)
    refine bind_done (check_passes rfl) ?_
    exact (vnode_incref_ensures held consistent).unfailing
  | none =>
    have absent : ino ∉ fs.vnodes := by
      rw [consistent.table.listed, Loaded, held]
      simp
    have used := consistent.books.used_of_owns (.inode ino) ⟨alive, rfl⟩
    obtain ⟨sv, made, inode, clean, count, ops⟩ := make_vnode_of_live consistent alive
    have stored : disk fs ino = fs.device.sectors ino.toNat := by simp only [disk, held]
    have encoded : sv.i.encode = disk fs ino := by
      rw [inode]
      exact Dinode.encode_decode _
    have made' : makeVnode (Dinode.decode (fs.device.sectors ino.toNat)) typeInval = .ok sv := by
      rw [← stored]
      exact made
    refine (sfs_loadvnode_absent consistent.ready used consistent.toCore.listed absent made').weaken
      ?_ ?_
    · rintro _ after ⟨memory, vnodesMax, rfl⟩
      have grown := undisturbed_grown consistent memory vnodesMax
      have volume : disk ((fs.grown memory vnodesMax).entered ino sv) = disk fs := by
        have edited := disk_edited fs ino sv
        rw [encoded, update_eq_self] at edited
        exact edited
      have files : live ((fs.grown memory vnodesMax).entered ino sv) = live fs := by
        funext other
        apply propext
        unfold live Live
        rw [volume, loaded_entered]
        constructor
        · rintro (root | named | loaded | rfl)
          · exact Or.inl root
          · exact Or.inr (Or.inl named)
          · exact Or.inr (Or.inr loaded)
          · exact alive
        · rintro (root | named | loaded)
          · exact Or.inl root
          · exact Or.inr (Or.inl named)
          · exact Or.inr (Or.inr (Or.inl loaded))
      refine ⟨⟨consistent.same ⟨volume, rfl, rfl, rfl, rfl⟩ files ?_, volume, files⟩, ?_⟩
      · refine table_entered grown.consistent.table held ops (by omega) (fun _ => ?_)
        rw [encoded, stored]
        rfl
      · have zero : references fs ino = 0 := by simp [held]
        rw [references_entered, count, zero]
        rfl
    · rintro _ after ⟨memory, vnodesMax, rfl⟩
      exact ⟨undisturbed_grown consistent memory vnodesMax, rfl⟩

/-- The inode of a new file. -/
def newInode : Dinode := { Dinode.zero with type := typeFile }

/-- A new file: nothing named it or had it loaded, and now it is loaded once. -/
structure Made (before : Fs) (ino : Ino) (after : Fs) : Prop where
  consistent : Consistent after
  steady : Steady before after
  fresh : ¬ live before ino
  grows : ∀ other, live before other → live after other
  references : references after = update (references before) ino 1

section making

variable {fs : Fs} (consistent : Consistent fs) {block : Ino} (fresh : ¬ InUse fs block)

include consistent fresh

theorem not_live_of_fresh : ¬ live fs block :=
  fun alive => fresh (consistent.books.used_of_owns (.inode block) ⟨alive, rfl⟩)

/-- Giving a block back that was just allocated undoes the allocation. -/
theorem unmade (below : block.toNat < fs.sb.nblocks.toNat) (memory : Nat → Bool) (vnodesMax : Nat) :
    Consistent (((fs.allocated block).grown memory vnodesMax).freed block) ∧
      Kept fs (((fs.allocated block).grown memory vnodesMax).freed block) := by
  obtain ⟨core, kept⟩ := consistent.toCore.allocated fresh
  have core : Core (InUse fs) ((fs.allocated block).grown memory vnodesMax) :=
    core.same ⟨rfl, rfl, rfl, rfl, rfl⟩ rfl (table_grown core.table memory vnodesMax)
  have kept : Kept fs (((fs.allocated block).grown memory vnodesMax).freed block) :=
    { kept with }
  have marks : ∀ other, InUse (((fs.allocated block).grown memory vnodesMax).freed block) other ↔
      InUse fs other := by
    intro other
    rw [in_use_freed]
    refine (and_congr_left' (in_use_allocated consistent.ready other below)).trans ?_
    constructor
    · rintro ⟨used | rfl, different⟩
      · exact used
      · exact absurd rfl different
    · intro used
      exact ⟨Or.inl used, fun same => fresh (same ▸ used)⟩
  refine ⟨consistent.kept ⟨standing_freed core.toStanding below, ?_, fun _ used => used⟩ kept, kept⟩
  exact core.books.congr (fun _ _ => Iff.rfl) marks

/-- A vnode for a block that was just allocated makes a file that nothing names. -/
theorem made_of_entered (below : block.toNat < fs.sb.nblocks.toNat) (memory : Nat → Bool)
    (vnodesMax : Nat) :
    Made fs block (((fs.allocated block).grown memory vnodesMax).entered block
      ⟨newInode, true, .fileops, 1⟩) := by
  obtain ⟨core, kept⟩ := consistent.toCore.allocated fresh
  have held : fs.heap block = none := consistent.toCore.unloaded fresh
  have volume : disk (((fs.allocated block).grown memory vnodesMax).entered block
      ⟨newInode, true, .fileops, 1⟩) = update (disk fs) block newInode.encode := by
    have edited := disk_edited (fs.allocated block) block ⟨newInode, true, .fileops, 1⟩
    rw [disk_allocated consistent.toCore fresh, update_idem] at edited
    exact edited
  have alike := alike_of_unused consistent.books (root_live fs) fresh newInode.encode
  have outside : ∀ other, live fs other →
      SameFile (disk fs) (update (disk fs) block newInode.encode) other :=
    fun other alive => (outside_of_unused consistent.books fresh alive).same
  have self : node (update (disk fs) block newInode.encode) block = newInode := by
    rw [node_update_self, Dinode.decode_encode]
  have nonzero : block ≠ 0 := fun zero => fresh (zero ▸ consistent.toCore.used_zero)
  have dead := not_live_of_fresh consistent fresh
  have files : ∀ other, live (((fs.allocated block).grown memory vnodesMax).entered block
      ⟨newInode, true, .fileops, 1⟩) other ↔ live fs other ∨ other = block := by
    intro other
    unfold live Live
    rw [volume, alike.directory, loaded_entered]
    show _ ∨ _ ∨ (Loaded fs other ∨ other = block) ↔ _
    tauto
  have marks : ∀ other, InUse (((fs.allocated block).grown memory vnodesMax).entered block
      ⟨newInode, true, .fileops, 1⟩) other ↔ InUse fs other ∨ other = block :=
    fun other => in_use_allocated consistent.ready other below
  have empty : ∀ place, pointer (update (disk fs) block newInode.encode) block place = 0 := by
    intro place
    cases place with
    | direct index | indirect | entry index =>
      simp only [pointer, self]
      rfl
  have table : Table (((fs.allocated block).grown memory vnodesMax).entered block
      ⟨newInode, true, .fileops, 1⟩) := by
    refine table_entered (table_grown core.table memory vnodesMax) held
      ⟨fun ops => ?_, fun directory => ?_⟩ Nat.one_pos
      (fun undirtied => ?_)
    · cases ops
    · exact absurd directory (by decide)
    · cases undirtied
  have refs := references_entered ((fs.allocated block).grown memory vnodesMax) block
    ⟨newInode, true, .fileops, 1⟩
  have ready := core.ready
  refine ⟨⟨⟨⟨{ ready with }, table, ?_⟩, ?_,
    fun _ used => used⟩, ?_⟩, ⟨?_, ?_⟩, dead, fun other alive => (files other).mpr (Or.inl alive),
    refs⟩
  · rw [volume]
    refine (alike.tidy consistent.tidy).reloaded (fun other alive => ?_)
    rw [← volume] at alive
    rcases (files other).mp alive with old | rfl
    · rw [alike.live_eq]
      exact Or.inl old
    · rw [self]
      exact Or.inr rfl
  · rw [volume]
    exact enter consistent.books fresh (fun other alive => (outside other alive).pointer) empty files
      marks
  · intro other alive different
    rw [volume, alike.directory]
    rcases (files other).mp alive with old | rfl
    · rw [(outside other old).node]
      exact consistent.counted other old different
    · rw [self]
      by_contra linked
      exact dead (Or.inr (Or.inl (named_of_links nonzero (Nat.pos_of_ne_zero (Ne.symm linked)))))
  · rw [volume, alike.directory]
  · rw [volume]
    exact alike.linkcount

end making

/-- Making a file either makes a fresh one or leaves everything as it was. -/
theorem sfs_makeobj_ensures (consistent : Consistent fs) :
    Ensures False (sfsMakeobj typeFile) fs (Made fs)
      (fun _ after => Consistent after ∧ Kept fs after) := by
  rcases sfs_balloc_cases consistent.ready with full | ⟨block, got, fresh, below⟩
  · exact bind_failed full ⟨consistent, Kept.refl fs⟩
  obtain ⟨core, kept⟩ := consistent.toCore.allocated fresh
  have used : InUse (fs.allocated block) block :=
    (in_use_allocated consistent.ready block below).mpr (Or.inr rfl)
  have absent : block ∉ (fs.allocated block).vnodes := by
    intro member
    exact fresh (consistent.toCore.listed block member)
  have made : makeVnode (Dinode.decode ((fs.allocated block).device.sectors block.toNat)) typeFile =
      .ok ⟨newInode, true, .fileops, 1⟩ := by
    have cleared : (fs.allocated block).device.sectors block.toNat = zeroBlock :=
      update_self _ _ _
    rw [cleared, Dinode.decode_zero]
    rfl
  refine bind_done got ?_
  refine attempt_bind (sfs_loadvnode_absent core.ready used core.listed absent made) ?_ ?_
  · rintro _ after ⟨memory, vnodesMax, rfl⟩
    exact ensures_pure (made_of_entered consistent fresh below memory vnodesMax)
  · rintro error after ⟨memory, vnodesMax, rfl⟩
    have used' : InUse ((fs.allocated block).grown memory vnodesMax) block := used
    refine bind_done (sfs_bfree_returns used') (ensures_fail ?_)
    exact unmade consistent fresh below memory vnodesMax

/-- The root directory can be had at any time, memory permitting. -/
theorem sfs_getroot_ensures (consistent : Consistent fs) : Ensures False sfsGetroot fs
      (fun ino after => ino = rootdirIno ∧ Undisturbed fs after ∧
        references after = update (references fs) ino (references fs ino + 1))
      (fun _ after => Undisturbed fs after ∧ references after = references fs) := by
  refine (sfs_loadvnode_ensures consistent (root_live fs)).bind ?_
  rintro _ after ⟨undisturbed, refs⟩
  have loaded : Loaded after rootdirIno := by
    rw [undisturbed.consistent.table.loaded_iff, refs, update_self]
    omega
  obtain ⟨sv, found⟩ := Option.isSome_iff_exists.mp loaded
  have type := undisturbed.consistent.tidy.root
  rw [node_disk found] at type
  refine bind_done (vnode_returns found) ?_
  rw [if_neg (not_not.mpr type)]
  exact ensures_pure ⟨rfl, undisturbed, refs⟩

end Os161.Sfs
