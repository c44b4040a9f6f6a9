import Os161.Sfs.Bmap
import Os161.Sfs.Entries

/-!
# Directories

The functions on the root directory: reading and writing the entry of a slot
through `sfs_metaio`, the search for a name, and adding and removing an entry. A
search that finds nothing returns `ENOENT`; here it returns that it found nothing,
as its callers also want the free slot it saw.

A search leaves everything alone. Writing an entry keeps the invariant, and changes
the directory in that entry, provided the entry names a loaded file or is free, and
the file it replaces, if any, is loaded: then no file becomes reachable or gets lost
by it.
-/
namespace Os161.Sfs

open Os161.Kern Os161.Library Os161.Library.Program

/-- The part of `sfs_metaio` that updates a block and the size of the file. -/
def sfsMetaioUpdate (ino diskblock : Ino) (metaiobuf : Block) (actualpos : Nat)
    (data : Fin 64 → Byte) : FsProgram (Fin 64 → Byte) := do
  writeblock diskblock (patch metaiobuf (actualpos % 512) data)
  let sv ← vnode ino
  if sv.i.size.toNat < actualpos + 64 then do
    editVnode ino (fun sv => { sv with
      i := { sv.i with size := BitVec.ofNat 32 (actualpos + 64) }, dirty := true })
    pure data
  else pure data

/-- `sfs_metaio` for an object of 64 bytes. It returns what is in the caller's
buffer afterwards. -/
def sfsMetaio (ino : Ino) (actualpos : Nat) (data : Fin 64 → Byte) (rw : Rw) :
    FsProgram (Fin 64 → Byte) := do
  let diskblock ← sfsBmap ino (BitVec.ofNat 32 (actualpos / 512)) (decide (rw = .write))
  if diskblock = 0 then do
    check (rw = .read) .assertion
    pure (fun _ => 0)
  else do
    let metaiobuf ← readblock diskblock
    match rw with
    | .read => pure (slice metaiobuf (actualpos % 512))
    | .write => sfsMetaioUpdate ino diskblock metaiobuf actualpos data

def sfsReaddir (ino : Ino) (slot : Nat) : FsProgram Direntry := do
  let bytes ← sfsMetaio ino (slot * 64) (fun _ => 0) .read
  pure (Direntry.decode bytes)

def sfsWritedir (ino : Ino) (slot : Nat) (sd : Direntry) : FsProgram PUnit := do
  let _ ← sfsMetaio ino (slot * 64) sd.encode .write
  pure ()

def sfsDirNentries (ino : Ino) : FsProgram Nat := do
  let sv ← vnode ino
  check (sv.i.type = typeDir) .assertion
  check (sv.i.size.toNat % 64 = 0) .invalidDirectorySize
  pure (sv.i.size.toNat / 64)

/-- What a search has found: the slot and the inode of the name, and a free slot. -/
structure Search where
  found : Option (Nat × Ino)
  emptyslot : Option Nat

/-- A round of the loop of `sfs_dir_findname`. -/
def sfsFindnameRound (ino : Ino) (name : CString) (i : Nat) (search : Search) :
    FsProgram Search := do
  let tsd ← sfsReaddir ino i
  if tsd.ino = 0 then pure { search with emptyslot := some i }
  else if tsd.string = name.bytes then do
    check (search.found = none) .assertion
    pure { search with found := some (i, tsd.ino) }
  else pure search

def sfsDirFindname (ino : Ino) (name : CString) : FsProgram Search := do
  let nentries ← sfsDirNentries ino
  countUp (sfsFindnameRound ino name) nentries ⟨none, none⟩

/-- The slot of a new entry: the free one that was found, or the end. -/
def linkSlot (dir : Ino) : Option Nat → FsProgram Nat
  | some slot => pure slot
  | none => sfsDirNentries dir

/-- `sfs_dir_link`, which hands back the slot. -/
def sfsDirLink (dir : Ino) (name : CString) (ino : Ino) : FsProgram Nat := do
  let search ← sfsDirFindname dir name
  if search.found ≠ none then failWith .EEXIST
  else if 60 < name.length + 1 then failWith .ENAMETOOLONG
  else do
    let slot ← linkSlot dir search.emptyslot
    sfsWritedir dir slot (Direntry.make ino name)
    pure slot

def sfsDirUnlink (dir : Ino) (slot : Nat) : FsProgram PUnit :=
  sfsWritedir dir slot Direntry.free

variable {slot : Nat} {entries : List Direntry} {fs after : Fs} {sv : Vnode}

theorem Core.slot_inside {used : Ino → Prop} (core : Core used fs)
    (below : slot < nentries (disk fs)) : slot / 8 < 143 := by
  have bounded := core.tidy.bounded
  unfold nentries at below
  omega

/-- The file block of a slot, and where the slot is in it. -/
theorem slot_position (inside : slot / 8 < 143) :
    (BitVec.ofNat 32 (slot * 64 / 512)).toNat = slot / 8 ∧ slot * 64 % 512 = 64 * (slot % 8) := by
  have quotient : slot * 64 / 512 = slot / 8 := by omega
  rw [quotient]
  exact ⟨Nat.mod_eq_of_lt (by omega), by omega⟩

section reading

variable {fs : Fs} (sound : Sound fs) {sv : Vnode} (found : fs.heap rootdirIno = some sv)

include sound found

theorem sfs_dir_nentries_returns :
    sfsDirNentries rootdirIno fs = .done (nentries (disk fs)) fs := by
  have same := node_disk found
  have type := sound.tidy.root
  have aligned := sound.tidy.aligned
  rw [same] at type aligned
  have looked := vnode_returns found
  simp only [sfsDirNentries, bind, andThen, looked, check, type, aligned, if_true, nentries, same]
  rfl

/-- Reading a slot returns its entry and changes nothing. -/
theorem sfs_readdir_returns (below : slot < nentries (disk fs)) :
    sfsReaddir rootdirIno slot fs = .done (slotEntry (disk fs) slot) fs := by
  have alive := root_live fs
  have inside := sound.slot_inside below
  obtain ⟨number, offset⟩ := slot_position inside
  obtain ⟨pointed, placed⟩ := exists_place inside
  have lookup := sfs_bmap_lookup sound found (by rw [number]; exact placed)
  have direction : decide (Rw.read = Rw.write) = false := by decide
  by_cases absent : pointer (disk fs) rootdirIno pointed = 0
  · have entry : slotEntry (disk fs) slot = Direntry.free := by
      simp only [slotEntry, contents, placed, target, absent, if_true, slice_zero]
    rw [entry]
    simp only [sfsReaddir, sfsMetaio, bind, andThen, direction, lookup, absent, if_true, check]
    rfl
  · have used := sound.used_pointer pointed alive absent
    have unloaded := sound.unloaded_pointer pointed alive absent
    have loaded := readblock_returns sound.ready used.1
    have entry : slotEntry (disk fs) slot = Direntry.decode (slice
        (fs.device.sectors (pointer (disk fs) rootdirIno pointed).toNat) (64 * (slot % 8))) := by
      simp only [slotEntry, contents, placed, target, absent, if_false]
      simp only [disk, unloaded]
    rw [entry]
    simp only [sfsReaddir, sfsMetaio, bind, andThen, direction, lookup, absent, if_false, loaded,
      offset]
    rfl

end reading

theorem directory_length (disk : Disk) : (directory disk).length = nentries disk := by
  unfold directory
  rw [List.length_map, List.length_range]

theorem directory_get (disk : Disk) (slot : Nat) (below : slot < (directory disk).length) :
    (directory disk)[slot] = slotEntry disk slot := by
  simp only [directory, List.getElem_map, List.getElem_range]

theorem Tidy.slot_names {disk : Disk} {loaded : Ino → Prop} (tidy : Tidy disk loaded)
    {first second : Nat} (order : first < second) (below : second < nentries disk)
    (firstUsed : (slotEntry disk first).ino ≠ 0) (secondUsed : (slotEntry disk second).ino ≠ 0) :
    (slotEntry disk first).string ≠ (slotEntry disk second).string := by
  have length := directory_length disk
  have pair := List.pairwise_iff_getElem.mp tidy.names first second (by omega) (by omega) order
  rw [directory_get, directory_get] at pair
  exact pair firstUsed secondUsed

/-- What a search knows after some number of slots. -/
structure Searched (disk : Disk) (name : CString) (bound : Nat) (search : Search) : Prop where
  hit : ∀ slot ino, search.found = some (slot, ino) → slot < bound ∧
    (slotEntry disk slot).ino = ino ∧ ino ≠ 0 ∧ (slotEntry disk slot).string = name.bytes
  miss : search.found = none → ∀ slot, slot < bound → (slotEntry disk slot).ino ≠ 0 →
    (slotEntry disk slot).string ≠ name.bytes
  empty : ∀ slot, search.emptyslot = some slot → slot < bound ∧ (slotEntry disk slot).ino = 0

section searching

variable {fs : Fs} (sound : Sound fs) {sv : Vnode} (found : fs.heap rootdirIno = some sv)

include sound found

/-- One round of the search of `sfs_dir_findname` looks at one more slot. -/
theorem sfs_findname_round_ensures {name : CString} {i : Nat} (below : i < nentries (disk fs))
    {search : Search} (searched : Searched (disk fs) name i search) :
    Succeeds (sfsFindnameRound rootdirIno name i search) fs
      (fun search after => after = fs ∧ Searched (disk fs) name (i + 1) search) := by
  refine Ensures.bind_done (sfs_readdir_returns sound found below) ?_
  by_cases free : (slotEntry (disk fs) i).ino = 0
  · rw [if_pos free]
    refine ensures_pure ⟨rfl, fun slot ino hit => ?_, fun none slot inside used => ?_,
      fun slot empty => ?_⟩
    · obtain ⟨inside, rest⟩ := searched.hit slot ino hit
      exact ⟨by omega, rest⟩
    · have earlier : slot ≠ i := fun same => used (same ▸ free)
      exact searched.miss none slot (by omega) used
    · cases empty
      exact ⟨by omega, free⟩
  · rw [if_neg free]
    by_cases same : (slotEntry (disk fs) i).string = name.bytes
    · rw [if_pos same]
      have first : search.found = none := by
        cases earlier : search.found with
        | none => rfl
        | some hit =>
          obtain ⟨slot, ino⟩ := hit
          obtain ⟨inside, named, used, matching⟩ := searched.hit slot ino earlier
          exact absurd (matching.trans same.symm)
            (sound.tidy.slot_names inside below (named ▸ used) free)
      refine Ensures.bind_done (check_passes first) (ensures_pure ⟨rfl, fun slot ino hit => ?_,
        fun none => (by cases none), fun slot empty => ?_⟩)
      · obtain ⟨rfl, rfl⟩ := hit
        exact ⟨by omega, rfl, free, same⟩
      · obtain ⟨inside, rest⟩ := searched.empty slot empty
        exact ⟨by omega, rest⟩
    · rw [if_neg same]
      refine ensures_pure ⟨rfl, fun slot ino hit => ?_, fun none slot inside used => ?_,
        fun slot empty => ?_⟩
      · obtain ⟨inside, rest⟩ := searched.hit slot ino hit
        exact ⟨by omega, rest⟩
      · by_cases here : slot = i
        · exact here ▸ same
        · exact searched.miss none slot (by omega) used
      · obtain ⟨inside, rest⟩ := searched.empty slot empty
        exact ⟨by omega, rest⟩

/-- A search returns what there is to find, and changes nothing. -/
theorem sfs_dir_findname_returns (name : CString) :
    ∃ search, sfsDirFindname rootdirIno name fs = .done search fs ∧
      Searched (disk fs) name (nentries (disk fs)) search := by
  have loop : Succeeds (countUp (sfsFindnameRound rootdirIno name) (nentries (disk fs))
      ⟨none, none⟩) fs
      (fun search after => after = fs ∧ Searched (disk fs) name (nentries (disk fs)) search) := by
    refine ensures_count_up (sfsFindnameRound rootdirIno name)
      (fun bound search after => after = fs ∧ Searched (disk fs) name bound search) _ ?_ ?_
    · exact ⟨rfl, fun _ _ hit => (by cases hit), fun _ slot below => absurd below (Nat.not_lt_zero _),
        fun _ empty => (by cases empty)⟩
    · rintro i search middle below ⟨rfl, searched⟩
      exact sfs_findname_round_ensures sound found below searched
  obtain ⟨search, after, ran, rfl, searched⟩ := loop.returned
  refine ⟨search, ?_, searched⟩
  simp only [sfsDirFindname, bind, andThen, sfs_dir_nentries_returns sound found, ran]

end searching

/-- What writing an entry leaves alone, and the directory it leaves. -/
structure Rewritten (before after : Fs) (entries : List Direntry) : Prop where
  vnodes : after.vnodes = before.vnodes
  refs : SameRefs before after
  type : ∀ ino, live before ino → (node (disk after) ino).type = (node (disk before) ino).type
  linkcount : ∀ ino, live before ino →
    (node (disk after) ino).linkcount = (node (disk before) ino).linkcount
  directory : directory (disk after) = entries

/-- A directory that may take the place of the present one: its names are different,
it does not name itself, and what it names or does not name any more is loaded or
was named before. -/
structure Replaces (fs : Fs) (entries : List Direntry) : Prop where
  apart : ∀ direntry, direntry ∈ entries → direntry.ino ≠ rootdirIno
  names : entries.Pairwise
    (fun first second => first.ino ≠ 0 → second.ino ≠ 0 → first.string ≠ second.string)
  linked : ∀ ino, Named entries ino → live fs ino
  unlinked : ∀ ino, Named (directory (disk fs)) ino → Named entries ino ∨ Loaded fs ino

/-- The same files are live under the new directory. -/
theorem Replaces.live (replaces : Replaces fs entries) (rewritten : Rewritten fs after entries) :
    live after = live fs := by
  funext ino
  unfold Sfs.live Live
  rw [rewritten.directory, rewritten.refs.loaded]
  apply propext
  constructor
  · rintro (root | named | loaded)
    · exact Or.inl root
    · exact replaces.linked ino named
    · exact Or.inr (Or.inr loaded)
  · rintro (root | named | loaded)
    · exact Or.inl root
    · exact Or.inr (replaces.unlinked ino named)
    · exact Or.inr (Or.inr loaded)

/-- A rewritten directory keeps the file system sound when its entries may be replaced. -/
theorem sound_of_directory (sound : Sound fs) (replaces : Replaces fs entries)
    (rewritten : Rewritten fs after entries) (ready : Ready after) (table : Table after)
    (nbits : after.freemap.nbits = fs.freemap.nbits)
    (books : Accounting (Owns (fs.freemap.nbits / 4096) (disk after) (live fs)) (InUse after))
    (aligned : (node (disk after) rootdirIno).size.toNat % 64 = 0)
    (bounded : (node (disk after) rootdirIno).size.toNat ≤ 143 * 512) : Sound after := by
  have files := replaces.live rewritten
  refine ⟨⟨ready, table, ?_, ?_, aligned, bounded, fun ino alive different => ?_, ?_, ?_⟩, ?_,
    fun _ used => used⟩
  · rw [rewritten.type _ (root_live fs)]
    exact sound.tidy.root
  · rw [rewritten.linkcount _ (root_live fs)]
    exact sound.tidy.rootLinked
  · have alive : Sfs.live fs ino := files ▸ alive
    rw [rewritten.type ino alive]
    exact sound.tidy.regular ino alive different
  · rw [rewritten.directory]
    exact replaces.apart
  · rw [rewritten.directory]
    exact replaces.names
  · rw [nbits, files]
    exact books

/-- A volume that differs from the present one in the entry of a slot. -/
structure Patched (fs : Fs) (slot : Nat) (direntry : Direntry) (volume : Disk) : Prop where
  nodes : ∀ ino, live fs ino → node volume ino = node (disk fs) ino
  slots : ∀ other, slotEntry volume other =
    if other = slot then direntry else slotEntry (disk fs) other
  books : Accounting (Owns (fs.freemap.nbits / 4096) volume (live fs)) (InUse fs)

theorem patched_of_entry (sound : Sound fs) {pointed : Pointer}
    (placed : place (slot / 8) = some pointed) (present : pointer (disk fs) rootdirIno pointed ≠ 0)
    (direntry : Direntry) :
    Patched fs slot direntry (Function.update (disk fs) (pointer (disk fs) rootdirIno pointed)
      (patch (contents (disk fs) rootdirIno (slot / 8)) (64 * (slot % 8)) direntry.encode)) where
  nodes := by
    intro ino otherAlive
    apply node_update_of_ne
    exact sound.books.apart (.inode ino) (.block rootdirIno pointed) ⟨otherAlive, rfl⟩
      ⟨root_live fs, present, rfl⟩ (by simp)
  slots := slot_of_data sound.books (root_live fs) present placed direntry
  books := by
    apply books_of_data sound.books (root_live fs) present
    intro indirect
    exact place_ne_indirect _ (indirect ▸ placed)

section patching

variable {fs : Fs} (sound : Sound fs) {slot : Nat} {direntry : Direntry}
  (replaces : Replaces fs (putEntry (directory (disk fs)) slot direntry)) {block : Ino}
  {written : Block} (table : Table (fs.put block written))
  (patched : Patched fs slot direntry (disk (fs.put block written)))

include sound replaces table patched

/-- The slot of an entry of the directory: its size stays. -/
theorem Patched.replaced (old : slot < nentries (disk fs)) : Sound (fs.put block written) ∧
      Rewritten fs (fs.put block written) (putEntry (directory (disk fs)) slot direntry) := by
  have root := patched.nodes rootdirIno (root_live fs)
  have rewritten : Rewritten fs (fs.put block written)
      (putEntry (directory (disk fs)) slot direntry) := by
    refine ⟨rfl, fun _ => rfl, ?_, ?_, ?_⟩
    · intro ino alive
      rw [patched.nodes ino alive]
    · intro ino alive
      rw [patched.nodes ino alive]
    · apply directory_of_slots slot direntry patched.slots (Nat.le_of_lt old)
      unfold nentries at old ⊢
      rw [root, if_pos old]
  refine ⟨sound_of_directory sound replaces rewritten (sound.ready.put block written) table rfl
    patched.books ?_ ?_, rewritten⟩
  · rw [root]
    exact sound.tidy.aligned
  · rw [root]
    exact sound.tidy.bounded

/-- The slot past the end of the directory: the size of the directory grows. -/
theorem Patched.appended (found : fs.heap rootdirIno = some sv) (new : slot = nentries (disk fs))
    (fits : slot * 64 + 64 ≤ 143 * 512) :
    let after := (fs.put block written).edited rootdirIno
      { sv with i := { sv.i with size := BitVec.ofNat 32 (slot * 64 + 64) }, dirty := true }
    Sound after ∧ Rewritten fs after (putEntry (directory (disk fs)) slot direntry) := by
  intro after
  have alive := root_live fs
  have same := (patched.nodes rootdirIno alive).trans (node_disk found)
  have number : (BitVec.ofNat 32 (slot * 64 + 64)).toNat = slot * 64 + 64 := by
    exact Nat.mod_eq_of_lt (by omega)
  have volume : disk after = Function.update (disk (fs.put block written)) rootdirIno
      ({ sv.i with size := BitVec.ofNat 32 (slot * 64 + 64) } : Dinode).encode :=
    disk_edited _ rootdirIno _
  have self : node (disk after) rootdirIno =
      { sv.i with size := BitVec.ofNat 32 (slot * 64 + 64) } := by
    rw [volume, node_update_self, Dinode.decode_encode]
  have others : ∀ ino, live fs ino → ino ≠ rootdirIno → node (disk after) ino = node (disk fs) ino := by
    intro ino otherAlive different
    rw [volume, (others_of_inode patched.books alive _ ino otherAlive different).node,
      patched.nodes ino otherAlive]
  have original := node_disk found
  have rewritten : Rewritten fs after (putEntry (directory (disk fs)) slot direntry) := by
    refine ⟨rfl, refs_edited found rfl, ?_, ?_, ?_⟩
    · intro ino otherAlive
      by_cases root : ino = rootdirIno
      · rw [root, self, original]
      · rw [others ino otherAlive root]
    · intro ino otherAlive
      by_cases root : ino = rootdirIno
      · rw [root, self, original]
      · rw [others ino otherAlive root]
    · apply directory_of_slots slot direntry
      · intro other
        rw [← patched.slots other, volume]
        unfold slotEntry
        rw [contents_of_inode patched.books alive _ (by rw [same]) (by rw [same])]
      · exact Nat.le_of_eq new
      · rw [if_neg (by omega), ← new]
        unfold nentries
        rw [self, number]
        omega
  refine ⟨sound_of_directory sound replaces rewritten
    ((sound.ready.put block written).edited rootdirIno _) ?_ rfl ?_ ?_ ?_, rewritten⟩
  · exact table_edited table rootdirIno sv _ found rfl rfl
      (sound.table.referenced rootdirIno sv found) (by simp)
  · rw [volume]
    exact books_of_inode patched.books alive _ (by rw [same]) (by rw [same])
  · rw [self, number]
    omega
  · rw [self, number]
    exact fits

end patching

section writing

variable {fs : Fs} (sound : Sound fs) {sv : Vnode} (found : fs.heap rootdirIno = some sv)

include sound found

/-- Writing an entry to its block, once the block is there, changes the directory in
that entry and extends it if the slot is new. -/
theorem sfs_metaio_update_ensures (within : slot ≤ nentries (disk fs)) {pointed : Pointer}
    (placed : place (slot / 8) = some pointed) (present : pointer (disk fs) rootdirIno pointed ≠ 0)
    {direntry : Direntry} (replaces : Replaces fs (putEntry (directory (disk fs)) slot direntry)) :
    Succeeds (sfsMetaioUpdate rootdirIno (pointer (disk fs) rootdirIno pointed)
        (fs.device.sectors (pointer (disk fs) rootdirIno pointed).toNat) (slot * 64)
        direntry.encode) fs
      (fun _ after => Sound after ∧
        Rewritten fs after (putEntry (directory (disk fs)) slot direntry)) := by
  have alive := root_live fs
  have inside := place_isSome placed
  have same := node_disk found
  have used := sound.used_pointer pointed alive present
  have unloaded := sound.unloaded_pointer pointed alive present
  have buffer : fs.device.sectors (pointer (disk fs) rootdirIno pointed).toNat =
      contents (disk fs) rootdirIno (slot / 8) := by
    simp only [contents, placed, target, present, if_false]
    simp only [disk, unloaded]
  rw [buffer]
  unfold sfsMetaioUpdate
  rw [(slot_position inside).2]
  refine Ensures.bind_done (writeblock_returns sound.ready _ _ used.1) ?_
  have patched := patched_of_entry sound placed present direntry
  rw [← disk_put _ unloaded] at patched
  have table := table_put sound.table
    (patch (contents (disk fs) rootdirIno (slot / 8)) (64 * (slot % 8)) direntry.encode) unloaded
  generalize patch (contents (disk fs) rootdirIno (slot / 8)) (64 * (slot % 8)) direntry.encode =
    written at table patched
  have found' : (fs.put (pointer (disk fs) rootdirIno pointed) written).heap rootdirIno = some sv :=
    found
  refine Ensures.bind_done (vnode_returns found') ?_
  have size : nentries (disk fs) = sv.i.size.toNat / 64 := by
    unfold nentries
    rw [same]
  split
  · refine Ensures.bind_done (edit_vnode_returns rootdirIno _ sv found') (ensures_pure ?_)
    exact patched.appended sound replaces table found (by omega) (by omega)
  · exact ensures_pure (patched.replaced sound replaces table (by omega))

end writing

theorem Kept.rewritten {before middle : Fs} (kept : Kept before middle)
    (rewritten : Rewritten middle after entries) : Rewritten before after entries := by
  have same : ∀ ino, Sfs.live before ino → Sfs.live middle ino := fun ino alive => by
    rw [kept.live]
    exact alive
  exact ⟨rewritten.vnodes.trans kept.vnodes, fun ino => (rewritten.refs ino).trans (kept.refs ino),
    fun ino alive => (rewritten.type ino (same ino alive)).trans (kept.alike.type ino alive),
    fun ino alive => (rewritten.linkcount ino (same ino alive)).trans (kept.alike.linkcount ino alive),
    rewritten.directory⟩

theorem Kept.replaces {before middle : Fs} (kept : Kept before middle)
    (replaces : Replaces before entries) : Replaces middle entries := by
  refine ⟨replaces.apart, replaces.names, ?_, ?_⟩
  · rw [kept.live]
    exact replaces.linked
  · rw [kept.alike.directory, kept.refs.loaded]
    exact replaces.unlinked

/-- `sfs_writedir` changes the directory in the entry, or fails for want of a block
and leaves it alone; it does not fail on a slot in use. -/
theorem sfs_writedir_ensures (sound : Sound fs) (found : fs.heap rootdirIno = some sv)
    (within : slot ≤ nentries (disk fs)) {direntry : Direntry}
    (replaces : Replaces fs (putEntry (directory (disk fs)) slot direntry)) :
    Ensures False (sfsWritedir rootdirIno slot direntry) fs (fun _ after => Sound after ∧
        Rewritten fs after (putEntry (directory (disk fs)) slot direntry))
      (fun _ after => Sound after ∧ Kept fs after ∧
        (slot < nentries (disk fs) → (slotEntry (disk fs) slot).ino = 0)) := by
  unfold nentries at within
  have number : (BitVec.ofNat 32 (slot * 64 / 512)).toNat = slot / 8 := by
    rw [BitVec.toNat_ofNat]
    omega
  have mapping := sfs_bmap_ensures sound found (BitVec.ofNat 32 (slot * 64 / 512)) true
  rw [number] at mapping
  have update : Ensures False (do
      let diskblock ← sfsBmap rootdirIno (BitVec.ofNat 32 (slot * 64 / 512)) true
      if diskblock = 0 then do
        check (Rw.write = .read) .assertion
        pure (fun _ => 0)
      else do
        let metaiobuf ← readblock diskblock
        sfsMetaioUpdate rootdirIno diskblock metaiobuf (slot * 64) direntry.encode) fs
      (fun _ after => Sound after ∧
        Rewritten fs after (putEntry (directory (disk fs)) slot direntry))
      (fun _ after => Sound after ∧ Kept fs after ∧
        (slot < nentries (disk fs) → (slotEntry (disk fs) slot).ino = 0)) := by
    refine (mapping.on_failure ?_).bind ?_
    · rintro _ after ⟨sound', kept, cause⟩
      refine ⟨sound', kept, fun below => ?_⟩
      obtain ⟨pointed, placed⟩ := exists_place (sound.slot_inside below)
      rcases cause with missing | ⟨other, also, unmapped⟩
      · rw [placed] at missing
        cases missing
      · rw [placed] at also
        cases also
        simp only [slotEntry, contents, placed, target, unmapped.absent, if_true, slice_zero]
        rfl
    · rintro diskblock middle ⟨pointed, placed, mapped⟩
      obtain ⟨sv', found'⟩ := mapped.kept.refs.found found
      have present := mapped.allocated rfl
      have held := mapped.held
      subst held
      rw [if_neg present]
      have used := mapped.sound.used_pointer pointed (root_live middle) present
      refine Ensures.bind_done (readblock_returns mapped.sound.ready used.1) ?_
      have same := mapped.kept.alike.directory
      have replaces' := mapped.kept.replaces replaces
      rw [← same] at replaces'
      refine (sfs_metaio_update_ensures mapped.sound found' ?_ placed present
        replaces').weaken (fun _ after written => ⟨written.1, ?_⟩) (fun _ _ failed => failed.elim)
      · unfold nentries
        rw [mapped.kept.alike.size]
        exact within
      · have rewritten := mapped.kept.rewritten written.2
        rw [same] at rewritten
        exact rewritten
  exact update.bind (fun _ after written => ensures_pure written)

/-- Naming a loaded file in a free slot, or at the end, under a new name is allowed. -/
theorem replaces_of_link (sound : Sound fs) {ino : Ino} (loaded : Loaded fs ino)
    (regular : ino ≠ rootdirIno)
    (free : slot < nentries (disk fs) → (slotEntry (disk fs) slot).ino = 0) (direntry : Direntry)
    (target : direntry.ino = ino)
    (new : ∀ other, other < nentries (disk fs) → (slotEntry (disk fs) other).ino ≠ 0 →
      (slotEntry (disk fs) other).string ≠ direntry.string) :
    Replaces fs (putEntry (directory (disk fs)) slot direntry) := by
  constructor
  · intro other member
    rcases mem_put_entry member with rfl | old
    · rw [target]
      exact regular
    · exact sound.tidy.apart other old
  · refine pairwise_put_entry (fun first second apart left right => (apart right left).symm)
      sound.tidy.names slot direntry ?_
    intro index below _ used _
    rw [directory_get] at used ⊢
    exact new index (directory_length (disk fs) ▸ below) used
  · rintro number ⟨nonzero, other, member, rfl⟩
    rcases mem_put_entry member with rfl | old
    · rw [target]
      exact Or.inr (Or.inr loaded)
    · exact Or.inr (Or.inl ⟨nonzero, other, old, rfl⟩)
  · rintro number ⟨nonzero, other, member, rfl⟩
    rcases mem_put_entry_of_mem member slot direntry with still | ⟨below, rfl⟩
    · exact Or.inl ⟨nonzero, other, still, rfl⟩
    · rw [directory_get] at nonzero
      exact absurd (free (directory_length (disk fs) ▸ below)) nonzero

/-- Freeing a slot that names a loaded file is allowed. -/
theorem replaces_of_unlink (sound : Sound fs) (loaded : Loaded fs (slotEntry (disk fs) slot).ino) :
    Replaces fs (putEntry (directory (disk fs)) slot Direntry.free) := by
  have zero : Direntry.free.ino = 0 := rfl
  constructor
  · intro other member
    rcases mem_put_entry member with rfl | old
    · decide
    · exact sound.tidy.apart other old
  · refine pairwise_put_entry (fun first second apart left right => (apart right left).symm)
      sound.tidy.names slot Direntry.free ?_
    intro index below _ _ used
    exact absurd zero used
  · rintro number ⟨nonzero, other, member, rfl⟩
    rcases mem_put_entry member with rfl | old
    · exact absurd zero nonzero
    · exact Or.inr (Or.inl ⟨nonzero, other, old, rfl⟩)
  · rintro number ⟨nonzero, other, member, rfl⟩
    rcases mem_put_entry_of_mem member slot Direntry.free with still | ⟨below, rfl⟩
    · exact Or.inl ⟨nonzero, other, still, rfl⟩
    · rw [directory_get]
      exact Or.inr loaded

/-- A directory with a file entered in a slot. -/
structure Linked (before : Fs) (ino : Ino) (slot : Nat) (after : Fs) : Prop where
  sound : Sound after
  files : live after = live before
  within : slot ≤ nentries (disk before)
  free : slot < nentries (disk before) → (slotEntry (disk before) slot).ino = 0
  rewritten : ∃ direntry, direntry.ino = ino ∧
    Rewritten before after (putEntry (directory (disk before)) slot direntry)

/-- `sfs_dir_link` enters a loaded file in a free slot, or fails and changes nothing
that matters. -/
theorem sfs_dir_link_ensures (sound : Sound fs) (found : fs.heap rootdirIno = some sv)
    (name : CString) {ino : Ino} (loaded : Loaded fs ino) (regular : ino ≠ rootdirIno) :
    Ensures False (sfsDirLink rootdirIno name ino) fs (Linked fs ino)
      (fun _ after => Sound after ∧ Kept fs after) := by
  obtain ⟨search, ran, searched⟩ := sfs_dir_findname_returns sound found name
  refine Ensures.bind_done ran ?_
  by_cases exist : search.found ≠ none
  · rw [if_pos exist]
    exact ensures_fail ⟨sound, Kept.refl fs⟩
  rw [if_neg exist]
  by_cases long : 60 < name.length + 1
  · rw [if_pos long]
    exact ensures_fail ⟨sound, Kept.refl fs⟩
  rw [if_neg long]
  have missing := searched.miss (not_not.mp exist)
  have chosen : ∃ slot, linkSlot rootdirIno search.emptyslot fs = .done slot fs ∧
      slot ≤ nentries (disk fs) ∧
      (slot < nentries (disk fs) → (slotEntry (disk fs) slot).ino = 0) := by
    cases empty : search.emptyslot with
    | none =>
      exact ⟨_, sfs_dir_nentries_returns sound found, Nat.le_refl _,
        fun below => absurd below (Nat.lt_irrefl _)⟩
    | some slot =>
      obtain ⟨below, free⟩ := searched.empty slot empty
      exact ⟨slot, rfl, by omega, fun _ => free⟩
  obtain ⟨slot, chose, within, free⟩ := chosen
  refine Ensures.bind_done chose ?_
  have replaces := replaces_of_link sound loaded regular free (Direntry.make ino name) rfl ?_
  · refine ((sfs_writedir_ensures sound found within replaces).on_failure
      (fun _ _ failed => ⟨failed.1, failed.2.1⟩)).bind ?_
    rintro _ after ⟨sound', rewritten⟩
    exact ensures_pure ⟨sound', replaces.live rewritten, within, free, _, rfl, rewritten⟩
  · rw [Direntry.string_make ino name (by omega)]
    exact missing

/-- `sfs_dir_unlink` frees a slot that names a loaded file. -/
theorem sfs_dir_unlink_ensures (sound : Sound fs) (found : fs.heap rootdirIno = some sv)
    (below : slot < nentries (disk fs)) (named : (slotEntry (disk fs) slot).ino ≠ 0)
    (loaded : Loaded fs (slotEntry (disk fs) slot).ino) :
    Succeeds (sfsDirUnlink rootdirIno slot) fs (fun _ after => Sound after ∧ live after = live fs ∧
        Rewritten fs after (putEntry (directory (disk fs)) slot Direntry.free)) := by
  have replaces := replaces_of_unlink sound loaded
  exact (sfs_writedir_ensures sound found (Nat.le_of_lt below) replaces).weaken
    (fun _ _ written => ⟨written.1, replaces.live written.2, written.2⟩)
    (fun _ _ failed => named (failed.2.2 below))

end Os161.Sfs
