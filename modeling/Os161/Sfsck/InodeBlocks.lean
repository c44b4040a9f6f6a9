import Os161.Sfs.Mapping

/-!
# The blocks of an inode in sfsck

The first pass of `sfsck` goes through the block pointers of every inode it finds.
Pointers out of the volume are cleared, pointers past the end of the file are freed, and
the blocks of the others are marked in use in a freemap of its own.

The end of the file is its size rounded up to whole blocks, computed in 32 bits. For the
511 largest sizes that wraps to zero, and all blocks of the file are freed. The place of a
block in the file of the volume is computed in 32 bits too, so an indirect block past the
first 4 GB is looked for, and written, where another block is.
-/
namespace Os161.Sfsck

open Os161.Kern Os161.Sfs Function

/-- `blockusage_t`. -/
inductive Blockusage
  | superblock
  | freemapblock
  | inode
  | iblock
  | dirdata
  | data
  | pastend
deriving DecidableEq

/-- The complaints about the blocks of an inode. -/
inductive Complaint
  | alreadyInUse (block : Ino) (how : Blockusage) (howdesc : Ino)
  | indirectOutside (ino : Ino) (fileblock : Nat) (pointer : Ino)
  | directOutside (ino : Ino) (fileblock : Nat) (pointer : Ino)
  | afterEof (ino : Ino) (count : Nat)

/-- The blocks of the file, `freemapdata` and `tofreedata`, the blocks found in use, the exit
code so far and what was complained about. -/
structure Fsck where
  sectors : Nat → Block
  inuse : Ino → Bool
  tofree : Ino → Bool
  blocksinuse : Nat
  badness : Nat
  complaints : List Complaint

abbrev exitRecov : Nat := 1

abbrev exitUnrecov : Nat := 2

def setbadness (code : Nat) (fsck : Fsck) : Fsck :=
  { fsck with badness := max fsck.badness code }

def warnx (complaint : Complaint) (fsck : Fsck) : Fsck :=
  { fsck with complaints := fsck.complaints ++ [complaint] }

def freemapBlockinuse (block : Ino) (how : Blockusage) (howdesc : Ino) (fsck : Fsck) : Fsck :=
  let told := if fsck.inuse block then
      setbadness exitUnrecov (warnx (.alreadyInUse block how howdesc) fsck)
    else fsck
  { told with
    tofree := update fsck.tofree block false
    inuse := update fsck.inuse block true
    blocksinuse := if how = .pastend then fsck.blocksinuse else fsck.blocksinuse + 1 }

def freemapBlockfree (block : Ino) (fsck : Fsck) : Fsck :=
  if fsck.tofree block ∨ fsck.inuse block then fsck
  else { fsck with tofree := update fsck.tofree block true }

/-- The blocks before the volume: the image of a disk on the host (`HOST`) has a header. -/
def header (host : Bool) : Nat := if host then 1 else 0

/-- Where `diskread` and `diskwrite` look for a block. -/
def diskPlace (host : Bool) (block : Ino) : Nat :=
  ((block + BitVec.ofNat 32 (header host)) * 512).toNat / 512

/-- The blocks of the volume. -/
def onVolume (host : Bool) (sectors : Nat → Block) (block : Nat) : Block :=
  sectors (block + header host)

/-- The blocks as `diskread` finds them. -/
def asRead (host : Bool) (sectors : Nat → Block) (block : Nat) : Block :=
  sectors (diskPlace host (BitVec.ofNat 32 block))

/-- What does not change in a `struct ibstate`. -/
structure Ibstate where
  ino : Ino
  fileblocks : Nat
  volblocks : Nat
  usagetype : Blockusage

/-- What does, but for the place in the file, and the flag of the caller. -/
structure Scan where
  fsck : Fsck
  pasteofcount : Nat
  changed : Bool

section

variable (host : Bool) (ibs : Ibstate)

/-- One pointer to a data block. The loop over the inode and the one over an indirect block
do the same to it. -/
def checkPointer (curfileblock : Nat) (pointer : Ino) (scan : Scan) : Ino × Scan :=
  if ibs.volblocks ≤ pointer.toNat then
    (0, { scan with
      fsck := warnx (.directOutside ibs.ino curfileblock pointer) (setbadness exitRecov scan.fsck)
      changed := true })
  else if pointer = 0 then (pointer, scan)
  else if curfileblock < ibs.fileblocks then
    (pointer, { scan with fsck := freemapBlockinuse pointer ibs.usagetype ibs.ino scan.fsck })
  else
    (0, { fsck := freemapBlockfree pointer (setbadness exitRecov scan.fsck)
          pasteofcount := scan.pasteofcount + 1
          changed := true })

/-- The loop over pointers. -/
def checkPointers : Nat → List Ino → Scan → List Ino × Scan
  | _, [], scan => ([], scan)
  | curfileblock, pointer :: rest, scan =>
    let one := checkPointer ibs curfileblock pointer scan
    let others := checkPointers (curfileblock + 1) rest one.2
    (one.1 :: others.1, others.2)

/-- The end of `check_indirect_block`: an empty block is freed, a changed one written back. -/
def finishIndirect (ientry : Ino) (iechanged : Bool) (checked : List Ino × Scan) : Ino × Scan :=
  let fsck := checked.2.fsck
  if checked.1.all (· = 0) then
    (0, { checked.2 with
      fsck := freemapBlockfree ientry (setbadness exitRecov fsck)
      changed := true })
  else
    let entries := ofWords fun index => checked.1.getD index 0
    (ientry, { checked.2 with
      fsck := if checked.2.changed then
          { fsck with sectors := update fsck.sectors (diskPlace host ientry) entries }
        else fsck
      changed := iechanged })

/-- `check_indirect_block` at level 1, the only one there is. -/
def checkIndirectBlock (curfileblock : Nat) (ientry : Ino) (scan : Scan) : Ino × Scan :=
  if 0 < ientry.toNat ∧ ientry.toNat < ibs.volblocks then
    finishIndirect host ientry scan.changed (checkPointers ibs curfileblock
      (List.ofFn (words (scan.fsck.sectors (diskPlace host ientry))))
      { scan with fsck := freemapBlockinuse ientry .iblock ibs.ino scan.fsck, changed := false })
  else if ibs.volblocks ≤ ientry.toNat then
    (0, { scan with
      fsck := warnx (.indirectOutside ibs.ino curfileblock ientry) (setbadness exitRecov scan.fsck)
      changed := true })
  else (ientry, scan)

end

/-- `SFS_ROUNDUP(sfi_size, SFS_BLOCKSIZE) / SFS_BLOCKSIZE`. -/
def fileblocks (size : BitVec 32) : Nat := ((size + 512 - 1) / 512 * 512 / 512).toNat

/-- The `struct ibstate` for an inode. -/
def ibstate (volblocks : BitVec 32) (ino : Ino) (sfi : Dinode) (isdir : Bool) : Ibstate where
  ino := ino
  fileblocks := fileblocks sfi.size
  volblocks := volblocks.toNat
  usagetype := if isdir then .dirdata else .data

def reportPasteof (ino : Ino) (scan : Scan) : Fsck :=
  if 0 < scan.pasteofcount then
    setbadness exitRecov (warnx (.afterEof ino scan.pasteofcount) scan.fsck)
  else scan.fsck

/-- `check_inode_blocks`: whether the inode has been modified, the inode, and the state. -/
def checkInodeBlocks (host : Bool) (volblocks : BitVec 32) (ino : Ino) (sfi : Dinode) (isdir : Bool)
    (fsck : Fsck) : Bool × Dinode × Fsck :=
  let ibs := ibstate volblocks ino sfi isdir
  let direct := checkPointers ibs 0 (List.ofFn sfi.direct) ⟨fsck, 0, false⟩
  let indirect := checkIndirectBlock host ibs 15 sfi.indirect direct.2
  (indirect.2.changed,
    { sfi with direct := fun index => direct.1.getD index 0, indirect := indirect.1 },
    reportPasteof ino indirect.2)

/-- A pointer to live data: in the volume, and at a block of the file that starts before the
file's end. -/
structure Live (volblocks : BitVec 32) (sfi : Dinode) (sectors : Nat → Block) (index : Nat) :
    Prop where
  before : index * 512 < sfi.size.toNat
  nonzero : sfi.mapping sectors index ≠ 0
  inside : (sfi.mapping sectors index).toNat < volblocks.toNat
  indirect : 15 ≤ index → sfi.indirect.toNat < volblocks.toNat

/-- Live pointers stay, and their blocks are marked in use. -/
def KeepsLive (host : Bool) (volblocks : BitVec 32) (ino : Ino) (sfi : Dinode) (isdir : Bool)
    (fsck : Fsck) : Prop :=
  let done := checkInodeBlocks host volblocks ino sfi isdir fsck
  let before := sfi.mapping (onVolume host fsck.sectors)
  ∀ index, Live volblocks sfi (onVolume host fsck.sectors) index →
    done.2.1.mapping (onVolume host done.2.2.sectors) index = before index ∧
      done.2.2.inuse (before index) = true

/-- An entry of the indirect block is safe although another block is read in its place: that
has a live pointer, and the entry's block is in use already, or is the indirect block itself,
or is one of the blocks that are found. -/
structure Found (host : Bool) (volblocks : BitVec 32) (sfi : Dinode) (fsck : Fsck) (block : Ino) :
    Prop where
  nonempty : ∃ entry : Fin 128, Live volblocks sfi (asRead host fsck.sectors) (15 + entry)
  marked : fsck.inuse block = true ∨ block = sfi.indirect ∨
    ∃ other, Live volblocks sfi (asRead host fsck.sectors) other ∧
      sfi.mapping (asRead host fsck.sectors) other = block

theorem fileblocks_to_nat (size : BitVec 32) :
    fileblocks size = (size.toNat + 511) % 2 ^ 32 / 512 := by
  have unit : (1 : BitVec 32).toNat = 1 := rfl
  have block : (512 : BitVec 32).toNat = 512 := rfl
  unfold fileblocks
  rw [BitVec.toNat_udiv, BitVec.toNat_mul, BitVec.toNat_udiv, BitVec.toNat_sub, BitVec.toNat_add,
    block]
  omega

theorem disk_place_near {host : Bool} {block : Ino} (near : block.toNat + header host < 2 ^ 23) :
    diskPlace host block = block.toNat + header host := by
  have size : (512 : BitVec 32).toNat = 512 := rfl
  unfold diskPlace
  rw [BitVec.toNat_mul, BitVec.toNat_add, BitVec.toNat_ofNat, size]
  omega

/-- Nothing is written to the disk, and the blocks in use are those before and those found. -/
structure Marks (before after : Fsck) (found : Ino → Prop) : Prop where
  sectors : after.sectors = before.sectors
  inuse : ∀ block, after.inuse block = true ↔ before.inuse block = true ∨ found block

theorem blockinuse_marks (block : Ino) (how : Blockusage) (howdesc : Ino) (fsck : Fsck) :
    Marks fsck (freemapBlockinuse block how howdesc fsck) (· = block) := by
  refine ⟨?_, fun other => ?_⟩
  · unfold freemapBlockinuse
    split <;> rfl
  · show update fsck.inuse block true other = true ↔ _
    by_cases same : other = block
    · simp [same]
    · simp [same]

theorem blockfree_marks (block : Ino) (fsck : Fsck) :
    Marks fsck (freemapBlockfree block fsck) fun _ => False := by
  unfold freemapBlockfree
  split <;> exact ⟨rfl, fun _ => (or_iff_left id).symm⟩

/-- What is left of a pointer. -/
def keptPointer (ibs : Ibstate) (curfileblock : Nat) (pointer : Ino) : Ino :=
  if pointer.toNat < ibs.volblocks ∧ curfileblock < ibs.fileblocks then pointer else 0

section

variable (ibs : Ibstate)

theorem check_pointer_kept (curfileblock : Nat) (pointer : Ino) (scan : Scan) :
    (checkPointer ibs curfileblock pointer scan).1 = keptPointer ibs curfileblock pointer := by
  unfold checkPointer keptPointer
  grind

theorem check_pointer_marks (curfileblock : Nat) (pointer : Ino) (scan : Scan) :
    let done := checkPointer ibs curfileblock pointer scan
    Marks scan.fsck done.2.fsck fun block => block ≠ 0 ∧ block = done.1 := by
  have marked := blockinuse_marks pointer ibs.usagetype ibs.ino scan.fsck
  have freed := blockfree_marks pointer (setbadness exitRecov scan.fsck)
  have cleared (block : Ino) : ¬ (block ≠ 0 ∧ block = 0) := fun both => both.1 both.2
  unfold checkPointer
  split
  · exact ⟨rfl, fun block => (or_iff_left (cleared block)).symm⟩
  split
  · rename_i zero
    exact ⟨rfl, fun block => (or_iff_left (zero ▸ cleared block)).symm⟩
  split
  · refine ⟨marked.sectors, fun block => (marked.inuse block).trans ?_⟩
    grind
  · refine ⟨freed.sectors, fun block => (freed.inuse block).trans ?_⟩
    grind [setbadness]

theorem check_pointers_kept (curfileblock : Nat) (pointers : List Ino) (scan : Scan) :
    (checkPointers ibs curfileblock pointers scan).1 =
      pointers.mapIdx fun index => keptPointer ibs (curfileblock + index) := by
  induction pointers generalizing curfileblock scan with
  | nil => rfl
  | cons pointer rest inductionHypothesis =>
    simp [checkPointers, List.mapIdx_cons, inductionHypothesis, check_pointer_kept,
      Nat.add_assoc, Nat.add_comm 1]

theorem check_pointers_marks (curfileblock : Nat) (pointers : List Ino) (scan : Scan) :
    let done := checkPointers ibs curfileblock pointers scan
    Marks scan.fsck done.2.fsck fun block => block ≠ 0 ∧ block ∈ done.1 := by
  induction pointers generalizing curfileblock scan with
  | nil => exact ⟨rfl, fun _ => by simp [checkPointers]⟩
  | cons first rest inductionHypothesis =>
    have now := check_pointer_marks ibs curfileblock first scan
    have later := inductionHypothesis (curfileblock + 1) (checkPointer ibs curfileblock first scan).2
    refine ⟨later.sectors.trans now.sectors, fun block => (later.inuse block).trans ?_⟩
    rw [now.inuse, checkPointers, List.mem_cons]
    tauto

end

section

variable (host : Bool) (ibs : Ibstate) (curfileblock : Nat) (ientry : Ino) (scan : Scan)

/-- An indirect block is looked at. -/
abbrev Ibstate.Inside : Prop := 0 < ientry.toNat ∧ ientry.toNat < ibs.volblocks

/-- What is left of the entries that are read for an indirect block. -/
def keptEntries (sectors : Nat → Block) : List Ino :=
  if ibs.Inside ientry then
    (List.ofFn (words (sectors (diskPlace host ientry)))).mapIdx fun index =>
      keptPointer ibs (curfileblock + index)
  else []

theorem finish_indirect_spec (iechanged : Bool) (checked : List Ino × Scan) :
    let done := finishIndirect host ientry iechanged checked
    done.1 = (if checked.1.all (· = 0) then 0 else ientry) ∧
      (∀ block, done.2.fsck.inuse block = true ↔ checked.2.fsck.inuse block = true) ∧
      ∀ place, done.2.fsck.sectors place = checked.2.fsck.sectors place ∨
        place = diskPlace host ientry ∧
          done.2.fsck.sectors place = ofWords fun index => checked.1.getD index 0 := by
  have freed := blockfree_marks ientry (setbadness exitRecov checked.2.fsck)
  unfold finishIndirect
  split
  · refine ⟨rfl, fun block => (freed.inuse block).trans (or_iff_left id), fun place => Or.inl ?_⟩
    exact congrFun freed.sectors place
  · refine ⟨rfl, ?_, fun place => ?_⟩
    · split <;> exact fun _ => Iff.rfl
    · split
      · by_cases here : place = diskPlace host ientry
        · exact Or.inr ⟨here, here ▸ update_self _ _ _⟩
        · exact Or.inl (update_of_ne here _ _)
      · exact Or.inl rfl

/-- An indirect block is kept if an entry is, and is written if one is not. -/
theorem check_indirect_spec :
    let done := checkIndirectBlock host ibs curfileblock ientry scan
    let kept := keptEntries host ibs curfileblock ientry scan.fsck.sectors
    done.1 = (if kept.all (· = 0) then 0 else ientry) ∧
      (∀ block, done.2.fsck.inuse block = true ↔ scan.fsck.inuse block = true ∨
        ibs.Inside ientry ∧ block = ientry ∨ block ≠ 0 ∧ block ∈ kept) ∧
      ∀ place, done.2.fsck.sectors place = scan.fsck.sectors place ∨
        place = diskPlace host ientry ∧
          done.2.fsck.sectors place = ofWords fun index => kept.getD index 0 := by
  have begun := blockinuse_marks ientry .iblock ibs.ino scan.fsck
  unfold checkIndirectBlock keptEntries
  by_cases inside : ibs.Inside ientry
  · rw [if_pos inside, if_pos inside]
    generalize freemapBlockinuse ientry .iblock ibs.ino scan.fsck = fsck at begun
    have marks := check_pointers_marks ibs curfileblock
      (List.ofFn (words (scan.fsck.sectors (diskPlace host ientry)))) ⟨fsck, scan.pasteofcount, false⟩
    rw [← check_pointers_kept ibs curfileblock _ ⟨fsck, scan.pasteofcount, false⟩]
    generalize checkPointers ibs curfileblock _ ⟨fsck, scan.pasteofcount, false⟩ = checked at marks
    obtain ⟨entry, inuse, written⟩ := finish_indirect_spec host ientry scan.changed checked
    refine ⟨entry, fun block => ?_, fun place => ?_⟩
    · rw [inuse, marks.inuse, begun.inuse, or_assoc, and_iff_right inside]
    · rw [← begun.sectors, ← marks.sectors]
      exact written place
  · rw [if_neg inside, if_neg inside]
    refine ⟨?_, fun block => ?_, fun _ => Or.inl ?_⟩
    · split
      · rfl
      · exact BitVec.eq_of_toNat_eq (show ientry.toNat = 0 by omega)
    · rw [or_iff_left (by simp [inside])]
      split <;> rfl
    · split <;> rfl

end

theorem mem_kept_iff {count : Nat} (ibs : Ibstate) (first : Nat) (pointers : Fin count → Ino)
    (block : Ino) :
    (block ∈ (List.ofFn pointers).mapIdx fun index => keptPointer ibs (first + index)) ↔
      ∃ index : Fin count, keptPointer ibs (first + index) (pointers index) = block := by
  simp only [List.mem_mapIdx, List.length_ofFn, List.getElem_ofFn]
  exact ⟨fun ⟨index, bound, same⟩ => ⟨⟨index, bound⟩, same⟩, fun ⟨index, same⟩ =>
    ⟨index, index.isLt, same⟩⟩

theorem kept_of_fn {count : Nat} (ibs : Ibstate) (first : Nat) (pointers : Fin count → Ino)
    (index : Fin count) :
    ((List.ofFn pointers).mapIdx fun index => keptPointer ibs (first + index)).getD index 0 =
      keptPointer ibs (first + index) (pointers index) := by
  rw [List.getD_eq_getElem?_getD, List.getElem?_mapIdx, List.getElem?_ofFn, dif_pos index.isLt]
  rfl

theorem report_pasteof_same {ino : Ino} {scan : Scan} :
    (reportPasteof ino scan).sectors = scan.fsck.sectors ∧
      (reportPasteof ino scan).inuse = scan.fsck.inuse := by
  unfold reportPasteof
  split <;> exact ⟨rfl, rfl⟩

section

variable {host : Bool} {volblocks : BitVec 32} {ino : Ino} {sfi : Dinode} {isdir : Bool} {fsck : Fsck}

/-- With the true end of file the pointers that are left are the live ones. -/
theorem kept_iff (unwrapped : sfi.size.toNat + 511 < 2 ^ 32) {index : Nat} {pointer block : Ino} :
    block ≠ 0 ∧ keptPointer (ibstate volblocks ino sfi isdir) index pointer = block ↔
      index * 512 < sfi.size.toNat ∧ pointer ≠ 0 ∧ pointer.toNat < volblocks.toNat ∧
        pointer = block := by
  have early : index < (ibstate volblocks ino sfi isdir).fileblocks ↔ index * 512 < sfi.size.toNat := by
    show index < fileblocks sfi.size ↔ _
    rw [fileblocks_to_nat]
    omega
  have bound : (ibstate volblocks ino sfi isdir).volblocks = volblocks.toNat := rfl
  simp only [keptPointer, early, bound]
  grind

theorem direct_found_iff (unwrapped : sfi.size.toNat + 511 < 2 ^ 32) (sectors : Nat → Block)
    (scan : Scan) (block : Ino) :
    (block ≠ 0 ∧
      block ∈ (checkPointers (ibstate volblocks ino sfi isdir) 0 (List.ofFn sfi.direct) scan).1) ↔
      ∃ index : Fin 15, Live volblocks sfi sectors index ∧ sfi.mapping sectors index = block := by
  rw [check_pointers_kept, mem_kept_iff, ← exists_and_left]
  refine exists_congr fun index => ?_
  rw [kept_iff unwrapped, Nat.zero_add, ← mapping_direct sfi sectors]
  constructor
  · rintro ⟨before, nonzero, inside, same⟩
    exact ⟨⟨before, nonzero, inside, fun _ => by omega⟩, same⟩
  · rintro ⟨⟨before, nonzero, inside, -⟩, same⟩
    exact ⟨before, nonzero, inside, same⟩

theorem Live.inside_of_entry {sectors : Nat → Block} {entry : Fin 128}
    (live : Live volblocks sfi sectors (15 + entry)) :
    (ibstate volblocks ino sfi isdir).Inside sfi.indirect := by
  refine ⟨Nat.pos_of_ne_zero fun zero => live.nonzero ?_, live.indirect (by omega)⟩
  rw [mapping_entry, if_pos (BitVec.eq_of_toNat_eq zero)]

theorem entries_found_iff (unwrapped : sfi.size.toNat + 511 < 2 ^ 32) (block : Ino) :
    (block ≠ 0 ∧ block ∈ keptEntries host (ibstate volblocks ino sfi isdir) 15 sfi.indirect fsck.sectors) ↔
      ∃ entry : Fin 128, Live volblocks sfi (asRead host fsck.sectors) (15 + entry) ∧
        sfi.mapping (asRead host fsck.sectors) (15 + entry) = block := by
  unfold keptEntries
  split
  · rename_i inside
    have present : sfi.indirect ≠ 0 := fun zero => by simp [Ibstate.Inside, zero] at inside
    rw [mem_kept_iff, ← exists_and_left]
    refine exists_congr fun entry => ?_
    have read : words (fsck.sectors (diskPlace host sfi.indirect)) entry =
        sfi.mapping (asRead host fsck.sectors) (15 + entry) := by
      rw [mapping_entry, if_neg present, Dinode.entries, asRead, BitVec.ofNat_toNat, BitVec.setWidth_eq]
    rw [kept_iff unwrapped, read]
    constructor
    · rintro ⟨before, nonzero, within, same⟩
      exact ⟨⟨before, nonzero, within, fun _ => inside.2⟩, same⟩
    · rintro ⟨⟨before, nonzero, within, -⟩, same⟩
      exact ⟨before, nonzero, within, same⟩
  · rename_i outside
    refine iff_of_false (fun both => List.not_mem_nil both.2) ?_
    exact fun ⟨_, live, _⟩ => outside live.inside_of_entry

/-- What the check of an inode does to its pointers, the blocks and the report. -/
theorem inode_blocks_spec :
    let done := checkInodeBlocks host volblocks ino sfi isdir fsck
    let ibs := ibstate volblocks ino sfi isdir
    let direct := (checkPointers ibs 0 (List.ofFn sfi.direct) ⟨fsck, 0, false⟩).1
    let kept := keptEntries host ibs 15 sfi.indirect fsck.sectors
    done.2.1.indirect = (if kept.all (· = 0) then 0 else sfi.indirect) ∧
      (∀ block, done.2.2.inuse block = true ↔ (fsck.inuse block = true ∨ block ≠ 0 ∧ block ∈ direct) ∨
        ibs.Inside sfi.indirect ∧ block = sfi.indirect ∨ block ≠ 0 ∧ block ∈ kept) ∧
      ∀ place, done.2.2.sectors place = fsck.sectors place ∨
        place = diskPlace host sfi.indirect ∧
          done.2.2.sectors place = ofWords fun index => kept.getD index 0 := by
  simp only [checkInodeBlocks, report_pasteof_same]
  generalize ibstate volblocks ino sfi isdir = ibs
  have marks := check_pointers_marks ibs 0 (List.ofFn sfi.direct) ⟨fsck, 0, false⟩
  have spec := check_indirect_spec host ibs 15 sfi.indirect
    (checkPointers ibs 0 (List.ofFn sfi.direct) ⟨fsck, 0, false⟩).2
  simp only [marks.sectors, marks.inuse] at spec
  exact spec

/-- What is live by one reading of the disk is live by another with the same pointer. -/
theorem Live.reread {sectors others : Nat → Block} {index : Nat}
    (live : Live volblocks sfi sectors index)
    (same : sfi.mapping others index = sfi.mapping sectors index) :
    Live volblocks sfi others index :=
  ⟨live.before, same ▸ live.nonzero, same ▸ live.inside, live.indirect⟩

/-- An indirect block in the first 4 GB is read where it is. -/
theorem Live.found {entry : Fin 128}
    (live : Live volblocks sfi (onVolume host fsck.sectors) (15 + entry))
    (near : sfi.indirect.toNat + header host < 2 ^ 23) :
    Found host volblocks sfi fsck (sfi.mapping (onVolume host fsck.sectors) (15 + entry)) := by
  have same : sfi.mapping (asRead host fsck.sectors) (15 + entry) =
      sfi.mapping (onVolume host fsck.sectors) (15 + entry) := by
    simp only [mapping_entry, Dinode.entries, asRead, onVolume, BitVec.ofNat_toNat,
      BitVec.setWidth_eq, disk_place_near near]
  exact ⟨⟨entry, live.reread same⟩, Or.inr (Or.inr ⟨15 + entry, live.reread same, same⟩)⟩

/-- The blocks in use afterwards. -/
theorem inuse_iff (unwrapped : sfi.size.toNat + 511 < 2 ^ 32) (block : Ino) :
    (checkInodeBlocks host volblocks ino sfi isdir fsck).2.2.inuse block = true ↔
      fsck.inuse block = true ∨
        (ibstate volblocks ino sfi isdir).Inside sfi.indirect ∧ block = sfi.indirect ∨
        ∃ index, Live volblocks sfi (asRead host fsck.sectors) index ∧
          sfi.mapping (asRead host fsck.sectors) index = block := by
  rw [inode_blocks_spec.2.1, direct_found_iff unwrapped (asRead host fsck.sectors),
    entries_found_iff unwrapped, or_assoc]
  refine or_congr_right (or_left_comm.trans (or_congr_right ?_))
  constructor
  · rintro (⟨index, found⟩ | ⟨entry, found⟩)
    · exact ⟨index, found⟩
    · exact ⟨15 + entry, found⟩
  · rintro ⟨index, live, same⟩
    rcases fileblock_cases index with ⟨direct, rfl⟩ | ⟨entry, rfl⟩ | beyond
    · exact Or.inl ⟨direct, live, same⟩
    · exact Or.inr ⟨entry, live, same⟩
    · exact absurd (mapping_beyond _ _ beyond) live.nonzero

/-- The indirect block stays exactly if one of the entries that are read does. -/
theorem indirect_cleared_iff (unwrapped : sfi.size.toNat + 511 < 2 ^ 32) :
    (keptEntries host (ibstate volblocks ino sfi isdir) 15 sfi.indirect fsck.sectors).all (· = 0) = true ↔
      ¬ ∃ entry : Fin 128, Live volblocks sfi (asRead host fsck.sectors) (15 + entry) := by
  simp only [List.all_eq_true, decide_eq_true_eq]
  constructor
  · rintro empty ⟨entry, live⟩
    obtain ⟨nonzero, member⟩ := (entries_found_iff unwrapped _).mpr ⟨entry, live, rfl⟩
    exact nonzero (empty _ member)
  · intro none_live block member
    by_contra nonzero
    obtain ⟨entry, live, -⟩ := (entries_found_iff unwrapped block).mp ⟨nonzero, member⟩
    exact none_live ⟨entry, live⟩

theorem nothing_left (empty : fileblocks sfi.size = 0) (index : Nat) :
    let done := checkInodeBlocks host volblocks ino sfi isdir fsck
    done.2.1.mapping (onVolume host done.2.2.sectors) index = 0 := by
  intro done
  have none_kept (place : Nat) (pointer : Ino) :
      keptPointer (ibstate volblocks ino sfi isdir) place pointer = 0 :=
    if_neg fun kept => absurd kept.2 (Nat.not_lt.mpr (empty.trans_le (Nat.zero_le place)))
  rcases fileblock_cases index with ⟨direct, rfl⟩ | ⟨entry, rfl⟩ | beyond
  · rw [mapping_direct]
    show (checkPointers _ 0 _ _).1.getD direct 0 = 0
    rw [check_pointers_kept, kept_of_fn, none_kept]
  · rw [mapping_entry]
    refine if_pos (inode_blocks_spec.1.trans (if_pos ?_))
    rw [List.all_eq_true, keptEntries]
    intro block member
    split at member
    · obtain ⟨place, same⟩ := (mem_kept_iff _ 15 _ block).mp member
      exact decide_eq_true (same.symm.trans (none_kept _ _))
    · cases member
  · exact mapping_beyond _ _ beyond

theorem direct_kept (unwrapped : sfi.size.toNat + 511 < 2 ^ 32) (index : Fin 15)
    (live : Live volblocks sfi (onVolume host fsck.sectors) index) :
    let done := checkInodeBlocks host volblocks ino sfi isdir fsck
    done.2.1.mapping (onVolume host done.2.2.sectors) index =
      sfi.mapping (onVolume host fsck.sectors) index := by
  obtain ⟨before, nonzero, inside, -⟩ := live
  simp only [mapping_direct] at nonzero inside ⊢
  show (checkPointers _ 0 _ _).1.getD index 0 = sfi.direct index
  rw [check_pointers_kept, kept_of_fn, Nat.zero_add]
  exact ((kept_iff unwrapped).mpr ⟨before, nonzero, inside, rfl⟩).2

/-- An entry of the indirect block stays with it: another block is written, or what is
written has the entry. -/
theorem entry_kept (unwrapped : sfi.size.toNat + 511 < 2 ^ 32) (entry : Fin 128)
    (live : Live volblocks sfi (onVolume host fsck.sectors) (15 + entry)) :
    let done := checkInodeBlocks host volblocks ino sfi isdir fsck
    done.2.1.indirect = sfi.indirect →
      done.2.1.mapping (onVolume host done.2.2.sectors) (15 + entry) =
        sfi.mapping (onVolume host fsck.sectors) (15 + entry) := by
  intro done pointed
  have within : (ibstate volblocks ino sfi isdir).Inside sfi.indirect := live.inside_of_entry
  obtain ⟨before, nonzero, inside, -⟩ := live
  have present : sfi.indirect ≠ 0 := fun zero => by simp [Ibstate.Inside, zero] at within
  simp only [mapping_entry, pointed, present, if_false, Dinode.entries, onVolume] at nonzero inside ⊢
  rcases inode_blocks_spec.2.2 (sfi.indirect.toNat + header host) with same | ⟨here, same⟩
  · rw [same]
  · rw [same, words_of_words, keptEntries, if_pos within, kept_of_fn, ← here]
    exact ((kept_iff unwrapped).mpr ⟨before, nonzero, inside, rfl⟩).2

variable (host volblocks ino sfi isdir fsck)

/-- Live data stays if and only if the size of the file can be rounded up in 32 bits and,
for what is in the indirect block, that is found where it is; or the block found in its place
happens to do as well.

Proof: with a size that wraps nothing is left. Otherwise direct pointers are always treated
as they should be. The entries that are looked at are those of the block that is read: they
decide whether the indirect block stays and which blocks are marked. -/
theorem live_data_kept_iff : KeepsLive host volblocks ino sfi isdir fsck ↔
    ∀ index, Live volblocks sfi (onVolume host fsck.sectors) index →
      sfi.size.toNat + 511 < 2 ^ 32 ∧
        (15 ≤ index → sfi.indirect.toNat + header host < 2 ^ 23 ∨
          Found host volblocks sfi fsck (sfi.mapping (onVolume host fsck.sectors) index)) := by
  constructor
  · intro keeps index live
    obtain ⟨same, used⟩ := keeps index live
    have unwrapped : sfi.size.toNat + 511 < 2 ^ 32 := by
      by_contra wrapped
      have empty : fileblocks sfi.size = 0 := by
        rw [fileblocks_to_nat]
        omega
      exact live.nonzero (same.symm.trans (nothing_left empty index))
    refine ⟨unwrapped, fun late => Or.inr ⟨?_, ?_⟩⟩
    · rcases fileblock_cases index with ⟨direct, rfl⟩ | ⟨entry, rfl⟩ | beyond
      · omega
      · by_contra none_live
        refine live.nonzero ?_
        rw [← same, mapping_entry, inode_blocks_spec.1,
          if_pos ((indirect_cleared_iff unwrapped).mpr none_live), if_pos rfl]
      · exact absurd (mapping_beyond _ _ beyond) live.nonzero
    · rcases (inuse_iff unwrapped _).mp used with before | ⟨-, itself⟩ | found
      · exact Or.inl before
      · exact Or.inr (Or.inl itself)
      · exact Or.inr (Or.inr found)
  · intro meets index live
    obtain ⟨unwrapped, reached⟩ := meets index live
    rcases fileblock_cases index with ⟨direct, rfl⟩ | ⟨entry, rfl⟩ | beyond
    · refine ⟨direct_kept unwrapped direct live,
        (inuse_iff unwrapped _).mpr (Or.inr (Or.inr ⟨direct, live.reread ?_, ?_⟩))⟩
      · simp only [mapping_direct]
      · simp only [mapping_direct]
    · have found := (reached (by omega)).elim (fun near => live.found near) id
      refine ⟨entry_kept unwrapped entry live (inode_blocks_spec.1.trans (if_neg ?_)),
        (inuse_iff unwrapped _).mpr ?_⟩
      · exact (indirect_cleared_iff unwrapped).not.mpr (not_not.mpr found.nonempty)
      rcases found.marked with before | itself | listed
      · exact Or.inl before
      · exact Or.inr (Or.inl ⟨live.inside_of_entry, itself⟩)
      · exact Or.inr (Or.inr listed)
    · exact absurd (mapping_beyond _ _ beyond) live.nonzero

end

/-- The inode of a file with a first block. -/
def oneBlock (size : BitVec 32) : Dinode :=
  ⟨size, 1, 1, fun index => if index.val = 0 then 5 else 0, 0, fun _ => 0⟩

/-- A disk of zeros, before anything was found. -/
def blankFsck : Fsck := ⟨fun _ => zeroBlock, fun _ => false, fun _ => false, 0, 0, []⟩

/-- The first block of a file of the largest size is dropped. -/
theorem largest_file_dropped :
    Live 64 (oneBlock 0xffffffff) (onVolume false blankFsck.sectors) 0 ∧
      (checkInodeBlocks false 64 2 (oneBlock 0xffffffff) false blankFsck).2.1.direct 0 = 0 ∧
      ¬ KeepsLive false 64 2 (oneBlock 0xffffffff) false blankFsck := by
  have live : Live 64 (oneBlock 0xffffffff) (onVolume false blankFsck.sectors) 0 :=
    ⟨by decide, by decide, by decide, by decide⟩
  have gone := @nothing_left false 64 2 (oneBlock 0xffffffff) false blankFsck (by decide) 0
  exact ⟨live, gone, fun keeps => live.nonzero ((keeps 0 live).1.symm.trans gone)⟩

end Os161.Sfsck
