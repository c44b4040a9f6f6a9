import Os161.Library.Accounting
import Os161.Sfs.Format

/-!
# Volumes

A volume is looked at here as the contents of its blocks, apart from who keeps
them: a file is the inode in the block of its number and the blocks the inode
points to, and the root directory is the list of entries in its file. A block is
owned in one of four ways, as the superblock, as a block of the freemap, as an
inode, or through a pointer of a file: a direct pointer, the pointer to the
indirect block, or an entry of that.

The lemmas say what a change of one block does. A block outside a file may change
without the file noticing; a pointer that is set to a fresh block, or cleared,
enters that block into the accounts or crosses it out; a fresh block is zero, so
that attaching it does not change what the file reads as.
-/
namespace Os161.Sfs

open Os161.Kern Os161.Library

/-- The contents of every block. -/
abbrev Disk := Ino → Block

/-- The inode of a file. -/
def node (disk : Disk) (ino : Ino) : Dinode := Dinode.decode (disk ino)

/-- The places in a file that hold a block number. -/
inductive Pointer
  | direct (index : Fin 15)
  | indirect
  | entry (index : Fin 128)
  deriving DecidableEq

/-- The block number in a place, zero when there is none. Without an indirect block
there are no entries. -/
def pointer (disk : Disk) (ino : Ino) : Pointer → BitVec 32
  | .direct index => (node disk ino).direct index
  | .indirect => (node disk ino).indirect
  | .entry index =>
    if (node disk ino).indirect = 0 then 0 else words (disk (node disk ino).indirect) index

/-- The place that holds the number of a block of a file, for a block that is not
past the largest file. -/
def place (fileblock : Nat) : Option Pointer :=
  if direct : fileblock < 15 then some (.direct ⟨fileblock, direct⟩)
  else if indirect : fileblock < 143 then some (.entry ⟨fileblock - 15, by omega⟩)
  else none

/-- What a place reads as: the block it points to, or zeros. -/
def target (disk : Disk) (ino : Ino) (pointed : Pointer) : Block :=
  if pointer disk ino pointed = 0 then zeroBlock else disk (pointer disk ino pointed)

/-- What a block of a file reads as. -/
def contents (disk : Disk) (ino : Ino) (fileblock : Nat) : Block :=
  match place fileblock with
  | none => zeroBlock
  | some pointed => target disk ino pointed

/-- The number of slots in the root directory. -/
def nentries (disk : Disk) : Nat := (node disk rootdirIno).size.toNat / 64

/-- The entry in a slot of the root directory. -/
def slotEntry (disk : Disk) (slot : Nat) : Direntry :=
  Direntry.decode (slice (contents disk rootdirIno (slot / 8)) (64 * (slot % 8)))

/-- The root directory. -/
def directory (disk : Disk) : List Direntry :=
  (List.range (nentries disk)).map (slotEntry disk)

/-- An entry names the inode. -/
def Named (entries : List Direntry) (ino : Ino) : Prop :=
  ino ≠ 0 ∧ ∃ direntry, direntry ∈ entries ∧ direntry.ino = ino

/-- The number of entries that name an inode. -/
def links (entries : List Direntry) (ino : Ino) : Nat :=
  entries.countP (fun direntry => direntry.ino = ino)

/-- A file that is still linked or still loaded. The root directory always is. -/
def Live (disk : Disk) (loaded : Ino → Prop) (ino : Ino) : Prop :=
  ino = rootdirIno ∨ Named (directory disk) ino ∨ loaded ino

/-- The ways a block can be reached. -/
inductive Way
  | super
  | freemap (index : Nat)
  | inode (ino : Ino)
  | block (ino : Ino) (pointed : Pointer)

/-- A way leads to a block. -/
def Owns (freemapblocks : Nat) (disk : Disk) (live : Ino → Prop) : Way → Ino → Prop
  | .super, block => block = 0
  | .freemap index, block => index < freemapblocks ∧ block.toNat = freemapStart + index
  | .inode ino, block => live ino ∧ block = ino
  | .block ino pointed, block => live ino ∧ block ≠ 0 ∧ block = pointer disk ino pointed

/-- A block is neither the inode of a file nor pointed to from it. -/
structure Outside (disk : Disk) (block ino : Ino) : Prop where
  inode : ino ≠ block
  pointed : ∀ other, pointer disk ino other ≠ 0 → pointer disk ino other ≠ block

/-- A file is the same on two disks. -/
structure SameFile (before after : Disk) (ino : Ino) : Prop where
  node : node after ino = node before ino
  pointer : ∀ pointed, pointer after ino pointed = pointer before ino pointed
  target : ∀ pointed, target after ino pointed = target before ino pointed

section update

variable {disk : Disk} {block ino : Ino} {data : Block}

theorem node_update_self : node (Function.update disk block data) block = Dinode.decode data := by
  unfold node
  rw [Function.update_self]

theorem node_update_of_ne (different : ino ≠ block) :
    node (Function.update disk block data) ino = node disk ino := by
  unfold node
  rw [Function.update_of_ne different]

/-- A file does not notice a change of a block outside it. -/
theorem Outside.same (outside : Outside disk block ino) :
    SameFile disk (Function.update disk block data) ino := by
  have same_node : node (Function.update disk block data) ino = node disk ino :=
    node_update_of_ne outside.inode
  have same_pointer : ∀ pointed,
      pointer (Function.update disk block data) ino pointed = pointer disk ino pointed := by
    intro pointed
    cases pointed with
    | direct index | indirect => simp only [pointer, same_node]
    | entry index =>
      simp only [pointer, same_node]
      by_cases absent : (node disk ino).indirect = 0
      · simp [absent]
      · have apart : (node disk ino).indirect ≠ block := outside.pointed .indirect absent
        simp [Function.update_of_ne apart]
  refine ⟨same_node, same_pointer, fun pointed => ?_⟩
  unfold target
  rw [same_pointer]
  by_cases absent : pointer disk ino pointed = 0
  · rw [if_pos absent, if_pos absent]
  · rw [if_neg absent, if_neg absent, Function.update_of_ne (outside.pointed _ absent)]

end update

theorem SameFile.contents {before after : Disk} {ino : Ino} (same : SameFile before after ino)
    (fileblock : Nat) : contents after ino fileblock = contents before ino fileblock := by
  unfold Sfs.contents
  cases place fileblock with
  | none => rfl
  | some pointed => exact same.target pointed

theorem SameFile.directory {before after : Disk} (same : SameFile before after rootdirIno) :
    directory after = directory before := by
  have slots : slotEntry after = slotEntry before := by
    funext slot
    unfold slotEntry
    rw [same.contents]
  unfold Sfs.directory nentries
  rw [same.node, slots]

section accounts

variable {freemapblocks : Nat} {disk after : Disk} {live used used' : Ino → Prop}
  {block ino : Ino}

/-- A block that no way of a live file leads to is outside of it. -/
theorem outside_of_unowned (alive : live ino)
    (no_inode : ¬ Owns freemapblocks disk live (.inode ino) block)
    (no_pointer : ∀ other, ¬ Owns freemapblocks disk live (.block ino other) block) :
    Outside disk block ino := by
  constructor
  · intro same
    exact no_inode ⟨alive, same.symm⟩
  · intro other present same
    exact no_pointer other ⟨alive, same ▸ present, same.symm⟩

section

variable (books : Accounting (Owns freemapblocks disk live) used)

include books

theorem outside_of_unused (unused : ¬ used block) (alive : live ino) : Outside disk block ino :=
  outside_of_unowned alive (fun owned => unused (books.used_of_owns _ owned))
    (fun _ owned => unused (books.used_of_owns _ owned))

theorem outside_of_inode {other : Ino} (alive : live ino) (otherAlive : live other)
    (different : other ≠ ino) : Outside disk ino other := by
  have owned : Owns freemapblocks disk live (.inode ino) ino := ⟨alive, rfl⟩
  apply outside_of_unowned otherAlive
  · intro also
    have same := books.unique _ _ _ owned also
    cases same
    exact different rfl
  · intro place also
    cases books.unique _ _ _ owned also

theorem outside_of_pointer (pointed : Pointer) {other : Ino} (alive : live ino)
    (otherAlive : live other) (different : other ≠ ino) (present : pointer disk ino pointed ≠ 0) :
    Outside disk (pointer disk ino pointed) other := by
  have owned : Owns freemapblocks disk live (.block ino pointed) (pointer disk ino pointed) :=
    ⟨alive, present, rfl⟩
  apply outside_of_unowned otherAlive
  · intro also
    cases books.unique _ _ _ owned also
  · intro place also
    have same := books.unique _ _ _ owned also
    cases same
    exact different rfl

theorem pointer_ne_inode (pointed : Pointer) (alive : live ino)
    (present : pointer disk ino pointed ≠ 0) : pointer disk ino pointed ≠ ino := by
  have owned : Owns freemapblocks disk live (.block ino pointed) (pointer disk ino pointed) :=
    ⟨alive, present, rfl⟩
  have inode : Owns freemapblocks disk live (.inode ino) ino := ⟨alive, rfl⟩
  exact books.apart _ _ owned inode (by simp)

theorem pointer_ne_pointer (pointed other : Pointer) (alive : live ino)
    (present : pointer disk ino pointed ≠ 0) (otherPresent : pointer disk ino other ≠ 0)
    (different : pointed ≠ other) : pointer disk ino pointed ≠ pointer disk ino other := by
  have owned : Owns freemapblocks disk live (.block ino pointed) (pointer disk ino pointed) :=
    ⟨alive, present, rfl⟩
  have also : Owns freemapblocks disk live (.block ino other) (pointer disk ino other) :=
    ⟨alive, otherPresent, rfl⟩
  exact books.apart _ _ owned also (by simpa using different)

end

/-- Ownership only reads the pointers of live files. -/
theorem owns_congr
    (same : ∀ other, live other → ∀ place, pointer after other place = pointer disk other place)
    (way : Way) (block : Ino) :
    Owns freemapblocks after live way block ↔ Owns freemapblocks disk live way block := by
  cases way with
  | block ino place => exact and_congr_right fun alive => by rw [same ino alive place]
  | _ => exact Iff.rfl

section

variable (books : Accounting (Owns freemapblocks disk live) used) (pointed : Pointer)
  (alive : live ino)
  (others : ∀ other, live other → other ≠ ino → ∀ place,
    pointer after other place = pointer disk other place)

include books alive others

/-- Setting a pointer that was zero to an unused block enters the block. -/
theorem attach (absent : pointer disk ino pointed = 0) (changed : ∀ place, pointer after ino place =
      if place = pointed then block else pointer disk ino place)
    (nonzero : block ≠ 0) (fresh : ¬ used block)
    (marked : ∀ other, used' other ↔ used other ∨ other = block) :
    Accounting (Owns freemapblocks after live) used' := by
  refine books.claim (.block ino pointed) fresh ?_ marked
  intro way other
  cases way with
  | super | freemap index | inode number => simp [Owns]
  | block number place =>
    simp only [Owns, Way.block.injEq]
    obtain rfl | same := eq_or_ne number ino
    · rw [changed]
      obtain rfl | here := eq_or_ne place pointed
      · simp only [if_true, absent, and_self, true_and, alive]
        constructor
        · rintro ⟨_, rfl⟩
          exact Or.inr rfl
        · rintro (⟨present, zero⟩ | rfl)
          · exact absurd zero present
          · exact ⟨nonzero, rfl⟩
      · simp [here]
    · simp only [same, false_and, or_false]
      exact and_congr_right fun otherAlive => by rw [others number otherAlive same place]

/-- Clearing a pointer and unmarking its block keeps the books. -/
theorem detach (present : pointer disk ino pointed ≠ 0)
    (changed : ∀ place, pointer after ino place =
      if place = pointed then 0 else pointer disk ino place)
    (unmarked : ∀ other, used' other ↔ used other ∧ other ≠ pointer disk ino pointed) :
    Accounting (Owns freemapblocks after live) used' := by
  have owned : Owns freemapblocks disk live (.block ino pointed) (pointer disk ino pointed) :=
    ⟨alive, present, rfl⟩
  refine books.release (pointer disk ino pointed) (fun way other => ?_) unmarked
  by_cases here : way = .block ino pointed
  · subst here
    simp only [Owns, changed, if_true]
    constructor
    · rintro ⟨_, nonzero, zero⟩
      exact absurd zero nonzero
    · rintro ⟨⟨_, _, equal⟩, unequal⟩
      exact absurd equal unequal
  · refine Iff.trans ?_ (books.untouched owned here other)
    cases way with
    | block number place =>
      refine and_congr_right fun otherAlive => ?_
      obtain rfl | same := eq_or_ne number ino
      · rw [changed, if_neg (by simpa using here)]
      · rw [others number otherAlive same place]
    | _ => exact Iff.rfl

end

/-- A new inode without pointers in an unused block enters that block. -/
theorem enter {live' : Ino → Prop} (books : Accounting (Owns freemapblocks disk live) used)
    (fresh : ¬ used block)
    (same : ∀ other, live other → ∀ place, pointer after other place = pointer disk other place)
    (empty : ∀ place, pointer after block place = 0)
    (files : ∀ other, live' other ↔ live other ∨ other = block)
    (marked : ∀ other, used' other ↔ used other ∨ other = block) :
    Accounting (Owns freemapblocks after live') used' := by
  refine books.claim (.inode block) fresh ?_ marked
  intro way other
  cases way with
  | super | freemap index => simp [Owns]
  | inode number =>
    simp only [Owns, files, Way.inode.injEq]
    constructor
    · rintro ⟨old | rfl, rfl⟩
      · exact Or.inl ⟨old, rfl⟩
      · exact Or.inr ⟨rfl, rfl⟩
    · rintro (⟨old, rfl⟩ | ⟨rfl, rfl⟩)
      · exact ⟨Or.inl old, rfl⟩
      · exact ⟨Or.inr rfl, rfl⟩
  | block number place =>
    simp only [Owns, files, reduceCtorEq, false_and, or_false]
    constructor
    · rintro ⟨old | rfl, present, rfl⟩
      · exact ⟨old, present, same number old place⟩
      · exact absurd (empty place) present
    · rintro ⟨old, present, rfl⟩
      exact ⟨Or.inl old, present, (same number old place).symm⟩

/-- Forgetting a file without blocks crosses its inode out. -/
theorem erase {live' : Ino → Prop} (books : Accounting (Owns freemapblocks disk live) used)
    (alive : live ino) (empty : ∀ place, pointer disk ino place = 0)
    (files : ∀ other, live' other ↔ live other ∧ other ≠ ino)
    (unmarked : ∀ other, used' other ↔ used other ∧ other ≠ ino) :
    Accounting (Owns freemapblocks disk live') used' := by
  have owned : Owns freemapblocks disk live (.inode ino) ino := ⟨alive, rfl⟩
  refine books.release ino (fun way other => ?_) unmarked
  by_cases here : way = .inode ino
  · subst here
    simp only [Owns, files]
    constructor
    · rintro ⟨⟨_, different⟩, _⟩
      exact absurd rfl different
    · rintro ⟨⟨_, same⟩, different⟩
      exact absurd same different
  · refine Iff.trans ?_ (books.untouched owned here other)
    cases way with
    | inode number =>
      have different : number ≠ ino := by simpa using here
      simp only [Owns, files, different, ne_eq, not_false_iff, and_true]
    | block number place =>
      simp only [Owns, files]
      constructor
      · rintro ⟨⟨old, _⟩, held⟩
        exact ⟨old, held⟩
      · rintro ⟨old, present, rfl⟩
        exact ⟨⟨old, fun same => present (same ▸ empty place)⟩, present, rfl⟩
    | _ => exact Iff.rfl

end accounts

theorem links_of_named {entries : List Direntry} {ino : Ino} (named : Named entries ino) :
    0 < links entries ino := by
  obtain ⟨_, direntry, member, same⟩ := named
  exact List.countP_pos_iff.mpr ⟨direntry, member, by simp [same]⟩

theorem named_of_links {entries : List Direntry} {ino : Ino} (nonzero : ino ≠ 0)
    (linked : 0 < links entries ino) : Named entries ino := by
  obtain ⟨direntry, member, same⟩ := List.countP_pos_iff.mp linked
  exact ⟨nonzero, direntry, member, by simpa using same⟩

/-- The volume is in order apart from its accounts and link counts: the root is the
only directory and is linked once, its size is a number of entries that fits a
file, no entry names it, and no two entries have the same name. -/
structure Tidy (disk : Disk) (loaded : Ino → Prop) : Prop where
  root : (node disk rootdirIno).type = typeDir
  rootLinked : (node disk rootdirIno).linkcount = 1
  aligned : (node disk rootdirIno).size.toNat % 64 = 0
  bounded : (node disk rootdirIno).size.toNat ≤ 143 * 512
  regular : ∀ ino, Live disk loaded ino → ino ≠ rootdirIno → (node disk ino).type = typeFile
  apart : ∀ direntry, direntry ∈ directory disk → direntry.ino ≠ rootdirIno
  names : (directory disk).Pairwise
    (fun first second => first.ino ≠ 0 → second.ino ≠ 0 → first.string ≠ second.string)

/-- A volume stays in order when files are forgotten, or regular ones are added. -/
theorem Tidy.reloaded {disk : Disk} {loaded loaded' : Ino → Prop} (tidy : Tidy disk loaded)
    (files : ∀ ino, Live disk loaded' ino → Live disk loaded ino ∨ (node disk ino).type = typeFile) :
    Tidy disk loaded' := by
  refine { tidy with regular := fun ino alive different => ?_ }
  rcases files ino alive with old | regular
  · exact tidy.regular ino old different
  · exact regular

/-- The link count of every file is the number of entries that name it. -/
def Counted (disk : Disk) (loaded : Ino → Prop) : Prop :=
  ∀ ino, Live disk loaded ino → ino ≠ rootdirIno →
    (node disk ino).linkcount.toNat = links (directory disk) ino

/-- Two disks differ in the blocks and the contents of regular files at most. -/
structure Alike (live : Ino → Prop) (before after : Disk) : Prop where
  type : ∀ ino, live ino → (node after ino).type = (node before ino).type
  linkcount : ∀ ino, live ino → (node after ino).linkcount = (node before ino).linkcount
  size : (node after rootdirIno).size = (node before rootdirIno).size
  contents : ∀ fileblock, contents after rootdirIno fileblock = contents before rootdirIno fileblock

section alike

variable {live loaded : Ino → Prop} {before middle after : Disk}

theorem Alike.refl {live : Ino → Prop} {disk : Disk} : Alike live disk disk :=
  ⟨fun _ _ => rfl, fun _ _ => rfl, rfl, fun _ => rfl⟩

theorem Alike.trans (first : Alike live before middle) (second : Alike live middle after) :
    Alike live before after :=
  ⟨fun ino alive => (second.type ino alive).trans (first.type ino alive),
    fun ino alive => (second.linkcount ino alive).trans (first.linkcount ino alive),
    second.size.trans first.size,
    fun fileblock => (second.contents fileblock).trans (first.contents fileblock)⟩

theorem Alike.directory (alike : Alike live before after) : directory after = directory before := by
  have slots : slotEntry after = slotEntry before := by
    funext slot
    unfold slotEntry
    rw [alike.contents]
  unfold Sfs.directory nentries
  rw [alike.size, slots]

theorem Alike.live_eq (alike : Alike live before after) (loaded : Ino → Prop) :
    Live after loaded = Live before loaded := by
  funext ino
  unfold Live
  rw [alike.directory]

theorem Alike.tidy (alike : Alike (Live before loaded) before after) (tidy : Tidy before loaded) :
    Tidy after loaded := by
  have root : Live before loaded rootdirIno := Or.inl rfl
  constructor
  · rw [alike.type _ root, tidy.root]
  · rw [alike.linkcount _ root, tidy.rootLinked]
  · rw [alike.size]
    exact tidy.aligned
  · rw [alike.size]
    exact tidy.bounded
  · intro ino alive different
    rw [alike.live_eq] at alive
    rw [alike.type _ alive]
    exact tidy.regular ino alive different
  · rw [alike.directory]
    exact tidy.apart
  · rw [alike.directory]
    exact tidy.names

theorem Alike.counted (alike : Alike (Live before loaded) before after)
    (counted : Counted before loaded) : Counted after loaded := by
  intro ino alive different
  rw [alike.live_eq] at alive
  rw [alike.linkcount _ alive, alike.directory]
  exact counted ino alive different

end alike

end Os161.Sfs
