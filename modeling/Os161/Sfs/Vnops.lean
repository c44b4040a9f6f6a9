import Os161.Sfs.Dir
import Os161.Sfs.FileIo
import Os161.Sfs.Inode

/-!
# Vnode operations

The operations on names: looking one up, creating, linking, removing and renaming
files. Each of them changes the directory and the link count of a file in two
steps. `linkFile` and `unlinkFile` are these pairs of steps; each takes a
consistent state to a consistent one, and in between the count is off by one.

The vnodes that an operation is given are loaded, and so is every vnode it touches.
On success it hands over at most one new reference; on failure it has let go of
all it took, and the directory and the link counts are as before.
-/
namespace Os161.Sfs

open Os161.Kern Os161.Library Os161.Library.Program Function
open Ensures (bind_done attempt_bind)

/-- `sfs_lookonce`, which hands back the inode and the slot. -/
def sfsLookonce (dir : Ino) (name : CString) : FsProgram (Ino × Nat) := do
  let search ← sfsDirFindname dir name
  match search.found with
  | none => failWith .ENOENT
  | some (slot, ino) => do
    sfsLoadvnode ino typeInval
    let sv ← vnode ino
    check (sv.i.linkcount ≠ 0) .linkcountZero
    pure (ino, slot)

/-- `sfs_dir_link` and the increment of the link count that follows it in each of
its callers. -/
def linkFile (dir : Ino) (name : CString) (ino : Ino) : FsProgram Nat := do
  let slot ← sfsDirLink dir name ino
  editVnode ino (fun sv => { sv with
    i := { sv.i with linkcount := sv.i.linkcount + 1 }, dirty := true })
  pure slot

/-- `sfs_dir_unlink` and the decrement of the link count that follows it when it
succeeds. -/
def unlinkFile (dir : Ino) (slot : Nat) (ino : Ino) : FsProgram PUnit := do
  sfsDirUnlink dir slot
  let sv ← vnode ino
  check (0 < sv.i.linkcount.toNat) .assertion
  editVnode ino (fun sv => { sv with
    i := { sv.i with linkcount := sv.i.linkcount - 1 }, dirty := true })

/-- Return a result that was kept while cleaning up. -/
def giveBack : Except Errno PUnit → FsProgram PUnit
  | .ok _ => pure ()
  | .error error => failWith error

def sfsCreat (dir : Ino) (name : CString) (excl : Bool) : FsProgram Ino := do
  let search ← sfsDirFindname dir name
  match search.found with
  | some (_, ino) =>
    if excl = true then failWith .EEXIST
    else do
      sfsLoadvnode ino typeInval
      pure ino
  | none => do
    let newguy ← sfsMakeobj typeFile
    match ← attempt (linkFile dir name newguy) with
    | .ok _ => pure newguy
    | .error error => do
      vnodeDecref newguy
      failWith error

def sfsLink (dir : Ino) (name : CString) (file : Ino) : FsProgram PUnit := do
  let f ← vnode file
  if f.i.type = typeDir then failWith .EINVAL
  else do
    let _ ← linkFile dir name file
    pure ()

def sfsRemove (dir : Ino) (name : CString) : FsProgram PUnit := do
  let (victim, slot) ← sfsLookonce dir name
  let result ← attempt (unlinkFile dir slot victim)
  vnodeDecref victim
  giveBack result

/-- The error recovery of `sfs_rename`, when the new name is there and the old one
cannot be removed. -/
def sfsRenameUndo (dir : Ino) (slot2 : Nat) (g1 : Ino) (error : Errno) : FsProgram PUnit := do
  match ← attempt (sfsDirUnlink dir slot2) with
  | .error _ => stopWith .cannotRecover
  | .ok _ => do
    editVnode g1 (fun sv => { sv with i := { sv.i with linkcount := sv.i.linkcount - 1 } })
    failWith error

/-- The part of `sfs_rename` between taking and letting go of the reference. -/
def sfsRenameLinks (dir : Ino) (n2 : CString) (g1 : Ino) (slot1 : Nat) : FsProgram PUnit := do
  let slot2 ← linkFile dir n2 g1
  match ← attempt (unlinkFile dir slot1 g1) with
  | .ok _ => pure ()
  | .error error => sfsRenameUndo dir slot2 g1 error

def sfsRename (d1 : Ino) (n1 : CString) (d2 : Ino) (n2 : CString) : FsProgram PUnit := do
  check (d1 = d2) .assertion
  check (d1 = rootdirIno) .assertion
  let (g1, slot1) ← sfsLookonce d1 n1
  let sv ← vnode g1
  check (sv.i.type = typeFile) .assertion
  let result ← attempt (sfsRenameLinks d1 n2 g1 slot1)
  vnodeDecref g1
  giveBack result

/-- `sfs_lookparent`. The name it copies out is the path. -/
def sfsLookparent (v : Ino) (path : CString) (buflen : Nat) : FsProgram Ino := do
  let sv ← vnode v
  if sv.i.type ≠ typeDir then failWith .ENOTDIR
  else if buflen < path.length + 1 then failWith .ENAMETOOLONG
  else do
    vnodeIncref v
    pure v

def sfsLookup (v : Ino) (path : CString) : FsProgram Ino := do
  let sv ← vnode v
  if sv.i.type ≠ typeDir then failWith .ENOTDIR
  else do
    let (final, _) ← sfsLookonce v path
    pure final

/-- Return what `sfs_io` returned. -/
def ioResult : Option Errno × Uio → FsProgram PUnit
  | (none, _) => pure ()
  | (some error, _) => failWith error

def sfsRead (v : Ino) (uio : Uio) : FsProgram PUnit := do
  check (uio.rw = .read) .assertion
  let result ← sfsIo v uio
  ioResult result

def sfsWrite (v : Ino) (uio : Uio) : FsProgram PUnit := do
  check (uio.rw = .write) .assertion
  let result ← sfsIo v uio
  ioResult result

def sfsTruncate (v : Ino) (len : Int) : FsProgram PUnit :=
  sfsItrunc v len

def sfsFsync (v : Ino) : FsProgram PUnit :=
  sfsSyncInode v

/-- The link count of a regular file was set. -/
structure Recounted (before : Fs) (ino : Ino) (count : BitVec 16) (after : Fs) : Prop where
  sound : Sound after
  directory : directory (disk after) = directory (disk before)
  files : live after = live before
  references : references after = references before
  here : (node (disk after) ino).linkcount = count
  others : ∀ other, live before other → other ≠ ino →
    node (disk after) other = node (disk before) other

variable {fs : Fs} {ino : Ino}

/-- Setting the link count of a regular file keeps the invariant apart from the
counts. -/
theorem recounted_of_edit (sound : Sound fs) (regular : ino ≠ rootdirIno) {sv : Vnode}
    (found : fs.heap ino = some sv) (count : BitVec 16) :
    Recounted fs ino count (fs.edited ino
      { sv with i := { sv.i with linkcount := count }, dirty := true }) := by
  have alive := live_of_loaded found
  have same := node_disk found
  have volume := disk_edited fs ino { sv with i := { sv.i with linkcount := count }, dirty := true }
  have others := others_of_inode sound.books alive ({ sv.i with linkcount := count } : Dinode).encode
  have books := books_of_inode sound.books alive { sv.i with linkcount := count }
    (by rw [same]) (by rw [same])
  have self : node (update (disk fs) ino
      ({ sv.i with linkcount := count } : Dinode).encode) ino = { sv.i with linkcount := count } := by
    rw [node_update_self, Dinode.decode_encode]
  have root := others rootdirIno (root_live fs) (Ne.symm regular)
  have loaded := loaded_edited fs ino
    { sv with i := { sv.i with linkcount := count }, dirty := true } (by simp [Loaded, found])
  have files : live (fs.edited ino
      { sv with i := { sv.i with linkcount := count }, dirty := true }) = live fs := by
    unfold live
    funext other
    unfold Live
    rw [loaded, volume, root.directory]
  have table := table_edited sound.table ino sv
    { sv with i := { sv.i with linkcount := count }, dirty := true } found rfl rfl
    (sound.table.referenced ino sv found) (by simp)
  have tidy := sound.tidy
  refine ⟨⟨⟨sound.ready.edited ino _, table, ?_⟩, ?_, fun _ used => used⟩, ?_, files, ?_, ?_, ?_⟩
  · rw [volume]
    refine ⟨?_, ?_, ?_, ?_, fun other otherAlive different => ?_, ?_, ?_⟩
    · rw [root.node]
      exact tidy.root
    · rw [root.node]
      exact tidy.rootLinked
    · rw [root.node]
      exact tidy.aligned
    · rw [root.node]
      exact tidy.bounded
    · rw [← volume] at otherAlive
      have otherAlive : live fs other := files ▸ otherAlive
      obtain rfl | equal := eq_or_ne other ino
      · rw [self, ← same]
        exact tidy.regular other alive regular
      · rw [(others other otherAlive equal).node]
        exact tidy.regular other otherAlive different
    · rw [root.directory]
      exact tidy.apart
    · rw [root.directory]
      exact tidy.names
  · rw [volume, files]
    exact books
  · rw [volume, root.directory]
  · rw [references_edited, ← references_found found, update_eq_self]
  · rw [volume, self]
  · rw [volume]
    exact fun other otherAlive different => (others other otherAlive different).node

/-- The root directory has at most as many slots as fit a file. -/
theorem links_bound (sound : Sound fs) (ino : Ino) : links (directory (disk fs)) ino ≤ 1144 := by
  have bounded := sound.tidy.bounded
  have length : links (directory (disk fs)) ino ≤ (directory (disk fs)).length :=
    List.countP_le_length
  rw [directory_length] at length
  unfold nentries at length
  omega

/-- A file entered in the directory and counted. -/
structure Entered (before : Fs) (ino : Ino) (slot : Nat) (after : Fs) : Prop where
  consistent : Consistent after
  files : live after = live before
  references : references after = references before
  within : slot ≤ nentries (disk before)
  free : slot < nentries (disk before) → (slotEntry (disk before) slot).ino = 0
  directory : ∃ direntry, direntry.ino = ino ∧
    directory (disk after) = putEntry (directory (disk before)) slot direntry

section links

variable {fs : Fs} (consistent : Consistent fs) {root : Vnode}
  (rootFound : fs.heap rootdirIno = some root) {ino : Ino} (regular : ino ≠ rootdirIno) {sv : Vnode}
  (found : fs.heap ino = some sv)

include consistent rootFound regular found

/-- Linking a loaded file and counting the link keeps the invariant. -/
theorem link_file_ensures (name : CString) :
    Ensures False (linkFile rootdirIno name ino) fs (Entered fs ino)
      (fun _ after => Consistent after ∧ Kept fs after) := by
  refine ((sfs_dir_link_ensures consistent.toCore rootFound name (by simp [Loaded, found])
    regular).on_failure (fun _ _ failed => ⟨consistent.kept failed.1 failed.2, failed.2⟩)).bind ?_
  intro slot middle linked
  obtain ⟨direntry, target, rewritten⟩ := linked.rewritten
  obtain ⟨sv', found'⟩ := rewritten.refs.found found
  have recounted := recounted_of_edit linked.sound regular found' (sv'.i.linkcount + 1)
  refine bind_done (edit_vnode_returns ino _ sv' found') (ensures_pure ?_)
  refine ⟨⟨recounted.sound, fun other otherAlive different => ?_⟩,
    recounted.files.trans linked.files, recounted.references.trans rewritten.refs.references,
    linked.within, linked.free, direntry, target, recounted.directory.trans rewritten.directory⟩
  have otherAlive : live middle other := recounted.files ▸ otherAlive
  have old : live fs other := linked.files ▸ otherAlive
  have count := consistent.counted other old different
  have bound := links_bound consistent.toCore other
  have free : ∀ below : slot < (directory (disk fs)).length, (directory (disk fs))[slot].ino = 0 := by
    intro below
    rw [directory_get]
    exact linked.free (directory_length (disk fs) ▸ below)
  have more := links_put_free direntry (consistent.toCore.nonzero old) free
  rw [recounted.directory, rewritten.directory, more]
  obtain rfl | same := eq_or_ne other ino
  · have earlier := rewritten.linkcount other old
    rw [node_disk found'] at earlier
    have unit : (1 : BitVec 16).toNat = 1 := rfl
    rw [recounted.here, earlier, if_pos target, ← count]
    exact Nat.mod_eq_of_lt (by omega)
  · rw [recounted.others other otherAlive same, rewritten.linkcount other old, count,
      if_neg (fun named => same (named.symm.trans target))]
    rfl

/-- Freeing a slot that names a loaded file and counting it keeps the invariant. -/
theorem unlink_file_ensures {slot : Nat} (below : slot < nentries (disk fs))
    (named : (slotEntry (disk fs) slot).ino = ino) :
    Succeeds (unlinkFile rootdirIno slot ino) fs
      (fun _ after => Consistent after ∧ live after = live fs ∧ references after = references fs) := by
  have alive := live_of_loaded found
  have nonzero := consistent.toCore.nonzero alive
  have loaded : Loaded fs (slotEntry (disk fs) slot).ino := by
    rw [named]
    simp [Loaded, found]
  refine (sfs_dir_unlink_ensures consistent.toCore rootFound below (named ▸ nonzero) loaded).bind ?_
  rintro _ middle ⟨sound, files, rewritten⟩
  obtain ⟨sv', found'⟩ := rewritten.refs.found found
  have earlier := rewritten.linkcount ino alive
  rw [node_disk found'] at earlier
  have inside : slot < (directory (disk fs)).length := by
    rw [directory_length]
    exact below
  have entry : (directory (disk fs))[slot].ino = ino := by
    rw [directory_get]
    exact named
  have fewer := fun {other : Ino} (different : other ≠ 0) =>
    links_put_over inside (rfl : Direntry.free.ino = 0) different
  have positive : 0 < sv'.i.linkcount.toNat := by
    rw [earlier, consistent.counted ino alive regular]
    have here := fewer nonzero
    rw [if_pos entry] at here
    omega
  have recounted := recounted_of_edit sound regular found' (sv'.i.linkcount - 1)
  refine bind_done (vnode_returns found') (bind_done (check_passes positive) ?_)
  refine ensures_of_done (edit_vnode_returns ino _ sv' found')
    ⟨⟨recounted.sound, fun other otherAlive different => ?_⟩, recounted.files.trans files,
      recounted.references.trans rewritten.refs.references⟩
  have otherAlive : live middle other := recounted.files ▸ otherAlive
  have old : live fs other := files ▸ otherAlive
  have count := consistent.counted other old different
  have here := fewer (consistent.toCore.nonzero old)
  rw [recounted.directory, rewritten.directory]
  obtain rfl | same := eq_or_ne other ino
  · rw [if_pos entry] at here
    have least : (1 : BitVec 16) ≤ sv'.i.linkcount := BitVec.le_def.mpr positive
    rw [recounted.here, BitVec.toNat_sub_of_le least, earlier, count, ← here]
    rfl
  · rw [if_neg (fun equal => same (equal.symm.trans entry))] at here
    rw [recounted.others other otherAlive same, rewritten.linkcount other old, count, ← here]
    rfl

end links

/-- An operation that failed: the directory, the link counts and the references are
as before. -/
structure Undone (before after : Fs) : Prop where
  consistent : Consistent after
  steady : Steady before after
  references : references after = references before

/-- A call that does what it should, or fails and has undone everything. -/
abbrev DoneOrUndone {Value : Type} (program : FsProgram Value) (fs : Fs)
    (returns : Value → Fs → Prop) : Prop :=
  Ensures False program fs returns fun _ => Undone fs

theorem Undisturbed.refl (consistent : Consistent fs) : Undisturbed fs fs :=
  ⟨consistent, rfl, rfl⟩

theorem Undisturbed.undone {before after : Fs} (undisturbed : Undisturbed before after)
    (references : references after = references before) : Undone before after :=
  ⟨undisturbed.consistent, steady_of_same undisturbed.volume, references⟩

theorem undone_of_kept {before after : Fs} (consistent : Consistent after) (kept : Kept before after) :
    Undone before after :=
  ⟨consistent, kept.steady, kept.refs.references⟩

theorem Consistent.find (consistent : Consistent fs) (ino : Ino) (held : 0 < references fs ino) :
    ∃ sv, fs.heap ino = some sv :=
  Option.isSome_iff_exists.mp ((consistent.table.loaded_iff ino).mpr held)

theorem references_back (refs : Ino → Nat) (ino : Ino) : update (update refs ino (refs ino + 1)) ino
      (update refs ino (refs ino + 1) ino - 1) = refs := by
  rw [update_self, Nat.add_sub_cancel, update_idem, update_eq_self]

theorem references_taken {refs : Ino → Nat} {other : Ino} (held : 0 < refs other) :
    0 < update refs ino (refs ino + 1) other := by
  obtain rfl | same := eq_or_ne other ino
  · rw [update_self]
    omega
  · rw [update_of_ne same]
    exact held

/-- A directory vnode is that of the root directory. -/
theorem root_of_directory (consistent : Consistent fs) {sv : Vnode} (found : fs.heap ino = some sv)
    (type : sv.i.type = typeDir) : ino = rootdirIno := by
  by_contra regular
  have file := consistent.tidy.regular ino (live_of_loaded found) regular
  rw [node_disk found, type] at file
  exact absurd file (by decide)

theorem slot_member {disk : Disk} {slot : Nat} (below : slot < nentries disk) :
    slotEntry disk slot ∈ directory disk :=
  List.mem_map.mpr ⟨slot, List.mem_range.mpr below, rfl⟩

/-- What looking a name up returns. -/
structure Looked (before : Fs) (result : Ino × Nat) (after : Fs) : Prop where
  undisturbed : Undisturbed before after
  references : references after =
    update (references before) result.1 (references before result.1 + 1)
  below : result.2 < nentries (disk before)
  named : (slotEntry (disk before) result.2).ino = result.1
  regular : result.1 ≠ rootdirIno

section names

variable {fs : Fs} (consistent : Consistent fs) (held : 0 < references fs rootdirIno)

include consistent held

/-- A lookup takes a reference to the file of the name, or fails and changes nothing. -/
theorem sfs_lookonce_ensures (name : CString) :
    DoneOrUndone (sfsLookonce rootdirIno name) fs (Looked fs) := by
  obtain ⟨root, rootFound⟩ := consistent.find rootdirIno held
  obtain ⟨search, ran, searched⟩ := sfs_dir_findname_returns consistent.toCore rootFound name
  refine bind_done ran ?_
  cases hit : search.found with
  | none => exact ensures_fail ((Undisturbed.refl consistent).undone rfl)
  | some result =>
    obtain ⟨slot, ino⟩ := result
    obtain ⟨below, named, nonzero, _⟩ := searched.hit slot ino hit
    have member := slot_member below
    have linked : Named (directory (disk fs)) ino := ⟨nonzero, _, member, named⟩
    have regular : ino ≠ rootdirIno := named ▸ consistent.tidy.apart _ member
    refine ((sfs_loadvnode_ensures consistent (Or.inr (Or.inl linked))).on_failure
      (fun _ _ failed => failed.1.undone failed.2)).bind ?_
    rintro _ after ⟨undisturbed, refs⟩
    obtain ⟨sv, found⟩ := undisturbed.consistent.find ino (by rw [refs, update_self]; omega)
    have positive : sv.i.linkcount ≠ 0 := by
      intro zero
      have count := undisturbed.consistent.counted ino (live_of_loaded found) regular
      rw [node_disk found, zero, undisturbed.volume] at count
      exact absurd (links_of_named linked) (by rw [← count]; decide)
    refine bind_done (vnode_returns found) (bind_done (check_passes positive) (ensures_pure ?_))
    exact ⟨undisturbed, refs, below, named, regular⟩

theorem sfs_lookup_ensures (path : CString) : DoneOrUndone (sfsLookup rootdirIno path) fs
      (fun ino after => Consistent after ∧
        references after = update (references fs) ino (references fs ino + 1)) := by
  obtain ⟨root, rootFound⟩ := consistent.find rootdirIno held
  have type := consistent.tidy.root
  rw [node_disk rootFound] at type
  refine bind_done (vnode_returns rootFound) ?_
  rw [if_neg (not_not.mpr type)]
  refine (sfs_lookonce_ensures consistent held path).bind ?_
  rintro ⟨ino, slot⟩ after looked
  exact ensures_pure ⟨looked.undisturbed.consistent, looked.references⟩

theorem sfs_lookparent_ensures (path : CString) (buflen : Nat) :
    DoneOrUndone (sfsLookparent rootdirIno path buflen) fs (fun ino after => Consistent after ∧
        references after = update (references fs) ino (references fs ino + 1)) := by
  obtain ⟨root, rootFound⟩ := consistent.find rootdirIno held
  have type := consistent.tidy.root
  rw [node_disk rootFound] at type
  refine bind_done (vnode_returns rootFound) ?_
  rw [if_neg (not_not.mpr type)]
  split
  · exact ensures_fail ((Undisturbed.refl consistent).undone rfl)
  · refine (vnode_incref_ensures rootFound consistent).unfailing.bind ?_
    rintro _ after ⟨undisturbed, refs⟩
    exact ensures_pure ⟨undisturbed.consistent, refs⟩

/-- `sfs_creat` makes or finds the file and takes a reference, or changes nothing. -/
theorem sfs_creat_ensures (name : CString) (excl : Bool) :
    DoneOrUndone (sfsCreat rootdirIno name excl) fs (fun ino after => Consistent after ∧
        references after = update (references fs) ino (references fs ino + 1)) := by
  obtain ⟨root, rootFound⟩ := consistent.find rootdirIno held
  obtain ⟨search, ran, searched⟩ := sfs_dir_findname_returns consistent.toCore rootFound name
  refine bind_done ran ?_
  cases hit : search.found with
  | some result =>
    obtain ⟨slot, ino⟩ := result
    obtain ⟨below, named, nonzero, _⟩ := searched.hit slot ino hit
    have linked : Named (directory (disk fs)) ino := ⟨nonzero, _, slot_member below, named⟩
    by_cases exclusive : excl = true
    · simp only [exclusive, if_true]
      exact ensures_fail ((Undisturbed.refl consistent).undone rfl)
    · simp only [exclusive]
      refine ((sfs_loadvnode_ensures consistent (Or.inr (Or.inl linked))).on_failure
        (fun _ _ failed => failed.1.undone failed.2)).bind ?_
      rintro _ after ⟨undisturbed, refs⟩
      exact ensures_pure ⟨undisturbed.consistent, refs⟩
  | none =>
    refine ((sfs_makeobj_ensures consistent).on_failure
      (fun _ _ failed => undone_of_kept failed.1 failed.2)).bind ?_
    intro newguy middle made
    have regular : newguy ≠ rootdirIno := fun same => made.fresh (same ▸ root_live fs)
    have unheld : references fs newguy = 0 := by
      rcases Nat.eq_zero_or_pos (references fs newguy) with none | some
      · exact none
      · exact absurd (Or.inr (Or.inr ((consistent.table.loaded_iff newguy).mpr some))) made.fresh
    obtain ⟨root', rootFound'⟩ := made.consistent.find rootdirIno
      (by rw [made.references, update_of_ne (Ne.symm regular)]; exact held)
    obtain ⟨sv, found⟩ := made.consistent.find newguy (by rw [made.references, update_self]; omega)
    refine attempt_bind (link_file_ensures made.consistent rootFound' regular found name) ?_ ?_
    · intro slot after entered
      refine ensures_pure ⟨entered.consistent, ?_⟩
      rw [entered.references, made.references, unheld]
    · rintro error second ⟨consistent', kept⟩
      obtain ⟨sv', found'⟩ := kept.refs.found found
      refine (vnode_decref_ensures found' consistent').unfailing.bind ?_
      rintro _ after ⟨consistent'', steady, refs⟩
      refine ensures_fail ⟨consistent'', ?_, ?_⟩
      · refine made.steady.trans made.grows (kept.steady.trans (fun other alive => ?_) steady)
        rw [kept.live]
        exact alive
      · rw [refs, kept.refs.references, made.references, update_self, update_idem,
          Nat.sub_self, ← unheld, update_eq_self]

/-- `sfs_link` adds a name for a file that is held, or changes nothing. -/
theorem sfs_link_ensures (name : CString) {file : Ino} (fileHeld : 0 < references fs file) :
    DoneOrUndone (sfsLink rootdirIno name file) fs
      (fun _ after => Consistent after ∧ references after = references fs) := by
  obtain ⟨root, rootFound⟩ := consistent.find rootdirIno held
  obtain ⟨sv, found⟩ := consistent.find file fileHeld
  refine bind_done (vnode_returns found) ?_
  by_cases directory : sv.i.type = typeDir
  · rw [if_pos directory]
    exact ensures_fail ((Undisturbed.refl consistent).undone rfl)
  rw [if_neg directory]
  have regular : file ≠ rootdirIno := by
    intro same
    have type := consistent.tidy.root
    rw [← same, node_disk found] at type
    exact directory type
  refine ((link_file_ensures consistent rootFound regular found name).on_failure
    (fun _ _ failed => undone_of_kept failed.1 failed.2)).bind ?_
  intro slot after entered
  exact ensures_pure ⟨entered.consistent, entered.references⟩

/-- `sfs_remove` takes a name away, or changes nothing. -/
theorem sfs_remove_ensures (name : CString) : DoneOrUndone (sfsRemove rootdirIno name) fs
      (fun _ after => Consistent after ∧ references after = references fs) := by
  refine (sfs_lookonce_ensures consistent held name).bind ?_
  rintro ⟨victim, slot⟩ middle looked
  have consistent' := looked.undisturbed.consistent
  have volume := looked.undisturbed.volume
  obtain ⟨root, rootFound⟩ := consistent'.find rootdirIno
    (by rw [looked.references]; exact references_taken held)
  obtain ⟨sv, found⟩ := consistent'.find victim (by rw [looked.references, update_self]; omega)
  refine attempt_bind (unlink_file_ensures consistent' rootFound looked.regular found
    (by rw [volume]; exact looked.below) (by rw [volume]; exact looked.named)) ?_
    nofun
  rintro _ second ⟨consistent₂, _, refs⟩
  obtain ⟨sv₂, found₂⟩ := consistent₂.find victim
    (by rw [refs, looked.references, update_self]; omega)
  refine (vnode_decref_ensures found₂ consistent₂).unfailing.bind ?_
  rintro _ after ⟨consistent₃, _, dropped⟩
  refine ensures_pure ⟨consistent₃, ?_⟩
  rw [dropped, refs, looked.references, references_back]

/-- The new name is entered and the old one taken away; or nothing happens. -/
theorem sfs_rename_links_ensures (n2 : CString) {g1 : Ino} (regular : g1 ≠ rootdirIno)
    (g1Held : 0 < references fs g1) {slot1 : Nat} (below : slot1 < nentries (disk fs))
    (named : (slotEntry (disk fs) slot1).ino = g1) :
    Ensures False (sfsRenameLinks rootdirIno n2 g1 slot1) fs
      (fun _ after => Consistent after ∧ references after = references fs)
      (fun _ after => Consistent after ∧ Kept fs after) := by
  obtain ⟨root, rootFound⟩ := consistent.find rootdirIno held
  obtain ⟨sv, found⟩ := consistent.find g1 g1Held
  refine (link_file_ensures consistent rootFound regular found n2).bind ?_
  intro slot2 middle entered
  have consistent' := entered.consistent
  obtain ⟨root', rootFound'⟩ := consistent'.find rootdirIno (by rw [entered.references]; exact held)
  obtain ⟨sv', found'⟩ := consistent'.find g1 (by rw [entered.references]; exact g1Held)
  obtain ⟨direntry, _, changed⟩ := entered.directory
  have nonzero : g1 ≠ 0 := consistent.toCore.nonzero (live_of_loaded found)
  have apart : slot2 ≠ slot1 := by
    intro same
    subst same
    exact nonzero (named.symm.trans (entered.free below))
  have inside : slot1 < (directory (disk fs)).length := by
    rw [directory_length]
    exact below
  obtain ⟨inside', still⟩ := get_put_entry inside apart direntry
  rw [← changed] at inside'
  have below' : slot1 < nentries (disk middle) := directory_length (disk middle) ▸ inside'
  have named' : (slotEntry (disk middle) slot1).ino = g1 := by
    rw [← directory_get (disk middle) slot1 inside', ← named, ← directory_get (disk fs) slot1 inside]
    simp [changed, still]
  refine attempt_bind (unlink_file_ensures consistent' rootFound' regular found' below' named')
    ?_ nofun
  rintro _ after ⟨consistent'', _, refs⟩
  exact ensures_pure ⟨consistent'', refs.trans entered.references⟩

/-- `sfs_rename` adds the new name and removes the old one, or changes nothing. -/
theorem sfs_rename_ensures (n1 n2 : CString) :
    DoneOrUndone (sfsRename rootdirIno n1 rootdirIno n2) fs
      (fun _ after => Consistent after ∧ references after = references fs) := by
  refine bind_done (check_passes rfl) (bind_done (check_passes rfl) ?_)
  refine (sfs_lookonce_ensures consistent held n1).bind ?_
  rintro ⟨g1, slot1⟩ middle looked
  have consistent' := looked.undisturbed.consistent
  have volume := looked.undisturbed.volume
  have rootHeld : 0 < references middle rootdirIno := by
    rw [looked.references]
    exact references_taken held
  have g1Held : 0 < references middle g1 := by
    rw [looked.references, update_self]
    omega
  obtain ⟨sv, found⟩ := consistent'.find g1 g1Held
  have type := consistent'.tidy.regular g1 (live_of_loaded found) looked.regular
  rw [node_disk found] at type
  refine bind_done (vnode_returns found) (bind_done (check_passes type) ?_)
  refine attempt_bind (sfs_rename_links_ensures consistent' rootHeld n2 looked.regular g1Held
    (by rw [volume]; exact looked.below) (by rw [volume]; exact looked.named)) ?_ ?_
  · rintro _ second ⟨consistent₂, refs⟩
    obtain ⟨sv₂, found₂⟩ := consistent₂.find g1 (by rw [refs]; exact g1Held)
    refine (vnode_decref_ensures found₂ consistent₂).unfailing.bind ?_
    rintro _ after ⟨consistent₃, _, dropped⟩
    refine ensures_pure ⟨consistent₃, ?_⟩
    rw [dropped, refs, looked.references, references_back]
  · rintro error second ⟨consistent₂, kept⟩
    obtain ⟨sv₂, found₂⟩ := kept.refs.found found
    refine (vnode_decref_ensures found₂ consistent₂).unfailing.bind ?_
    rintro _ after ⟨consistent₃, steady, dropped⟩
    refine ensures_fail ⟨consistent₃, ?_, ?_⟩
    · refine (steady_of_same volume).trans (fun other alive => ?_)
        (kept.steady.trans (fun other alive => ?_) steady)
      · rw [looked.undisturbed.files]
        exact alive
      · rw [kept.live]
        exact alive
    · rw [dropped, kept.refs.references, looked.references, references_back]

end names

section files

variable {fs : Fs} (consistent : Consistent fs) {ino : Ino} (regular : ino ≠ rootdirIno)
  (held : 0 < references fs ino)

include consistent regular held

/-- Reading and writing a regular file keep all but the contents of the file. -/
theorem sfs_io_result_ensures {uio : Uio} (fitting : Fitting uio) : DoneOrUndone (do
      let result ← sfsIo ino uio
      ioResult result) fs
      (fun _ after => Consistent after ∧ references after = references fs) := by
  obtain ⟨sv, found⟩ := consistent.find ino held
  refine (sfs_io_ensures consistent.toCore regular found fitting).unfailing.bind ?_
  rintro ⟨result, rest⟩ after ⟨sound, kept⟩
  have undone := undone_of_kept (consistent.kept sound kept) kept
  cases result with
  | none => exact ensures_pure ⟨undone.consistent, undone.references⟩
  | some error => exact ensures_fail undone

theorem sfs_truncate_ensures (len : Int) : DoneOrUndone (sfsTruncate ino len) fs
      (fun _ after => Consistent after ∧ references after = references fs) := by
  obtain ⟨sv, found⟩ := consistent.find ino held
  exact (sfs_itrunc_ensures consistent.toCore regular found len).weaken
    (fun _ _ cut => ⟨consistent.kept cut.1 cut.2.1, cut.2.1.refs.references⟩)
    nofun

end files

theorem sfs_fsync_ensures (consistent : Consistent fs) (held : 0 < references fs ino) :
    Succeeds (sfsFsync ino) fs (fun _ after => Undisturbed fs after ∧ SameRefs fs after) := by
  obtain ⟨sv, found⟩ := consistent.find ino held
  have used := consistent.books.used_of_owns (.inode ino) ⟨live_of_loaded found, rfl⟩
  refine (sfs_sync_inode_ensures found consistent.ready consistent.table used.1).on_return ?_
  rintro _ after ⟨same, table, kept, _⟩
  have files := live_of_same same.volume kept.refs.loaded
  exact ⟨⟨consistent.same same files table, same.volume, files⟩, kept.refs⟩

end Os161.Sfs
