import Os161.Sfs.Volume

/-!
# Changing the blocks of a file

Every change the file system makes to the blocks of a file is one of these: a
pointer in the inode or in the indirect block is set to a fresh block or cleared,
the size in the inode changes, or a block of data is written. Each keeps the
accounts, with the used blocks growing or shrinking by the block in question, and
leaves the other files and the directory as they were.
-/
namespace Os161.Sfs

open Os161.Kern Os161.Library Function

variable {freemapblocks : Nat} {disk after : Disk} {live used used' : Ino → Prop} {block ino : Ino}

attribute [local simp] pointer

/-- A change within one file, when all the others are the same, leaves the volume
alike if it keeps the type and the link count, and the root directory if that is
the file. -/
theorem alike_of_others (ino : Ino) (rootLive : live rootdirIno)
    (others : ∀ other, live other → other ≠ ino → SameFile disk after other)
    (type : (node after ino).type = (node disk ino).type)
    (linkcount : (node after ino).linkcount = (node disk ino).linkcount)
    (root : ino = rootdirIno → (node after ino).size = (node disk ino).size ∧
      ∀ fileblock, contents after ino fileblock = contents disk ino fileblock) :
    Alike live disk after := by
  have within : ∀ other, live other → (node after other).type = (node disk other).type ∧
      (node after other).linkcount = (node disk other).linkcount := by
    intro other alive
    obtain rfl | same := eq_or_ne other ino
    · exact ⟨type, linkcount⟩
    · rw [(others other alive same).node]
      exact ⟨rfl, rfl⟩
  obtain rfl | same := eq_or_ne ino rootdirIno
  · exact ⟨fun other alive => (within other alive).1, fun other alive => (within other alive).2,
      (root rfl).1, (root rfl).2⟩
  · have file := others rootdirIno rootLive (Ne.symm same)
    exact ⟨fun other alive => (within other alive).1, fun other alive => (within other alive).2,
      by rw [file.node], file.contents⟩

theorem alike_of_unused (books : Accounting (Owns freemapblocks disk live) used)
    (rootLive : live rootdirIno) (unused : ¬ used block) (data : Block) :
    Alike live disk (update disk block data) := by
  have same : ∀ ino, live ino → SameFile disk (update disk block data) ino :=
    fun ino alive => (outside_of_unused books unused alive).same
  refine alike_of_others rootdirIno rootLive (fun other alive _ => same other alive) ?_ ?_
    (fun _ => ⟨?_, (same rootdirIno rootLive).contents⟩)
  all_goals rw [(same rootdirIno rootLive).node]

/-- A block of a file is never read through the pointer to the indirect block. -/
theorem place_ne_indirect (fileblock : Nat) : place fileblock ≠ some .indirect := by
  unfold place
  split
  · simp
  · split <;> simp

theorem contents_of_targets
    (same : ∀ pointed, pointed ≠ .indirect → target after ino pointed = target disk ino pointed)
    (fileblock : Nat) : contents after ino fileblock = contents disk ino fileblock := by
  unfold contents
  cases found : place fileblock with
  | none => rfl
  | some pointed =>
    apply same
    intro indirect
    exact place_ne_indirect fileblock (indirect ▸ found)

variable {dinode : Dinode} {pointed : Pointer}

theorem target_of_pointer (same : pointer after ino pointed = pointer disk ino pointed)
    (unchanged : pointer disk ino pointed ≠ 0 →
      after (pointer disk ino pointed) = disk (pointer disk ino pointed)) :
    target after ino pointed = target disk ino pointed := by
  unfold target
  rw [same]
  by_cases absent : pointer disk ino pointed = 0
  · rw [if_pos absent, if_pos absent]
  · rw [if_neg absent, if_neg absent, unchanged absent]

/-- An inode is rewritten for the sake of its pointers. -/
structure Rewrites (before after : Dinode) : Prop where
  type : after.type = before.type
  linkcount : after.linkcount = before.linkcount
  size : after.size = before.size

section pointer

variable (books : Accounting (Owns freemapblocks disk live) used) (alive : live ino) (pointed : Pointer)
  (others : ∀ other, live other → other ≠ ino → SameFile disk after other)
  (changes : Rewrites (node disk ino) (node after ino)) (rootLive : live rootdirIno)

include books alive others changes rootLive

theorem attach_within (absent : pointer disk ino pointed = 0)
    (pointers : ∀ other, pointer after ino other =
      if other = pointed then block else pointer disk ino other)
    (targets : ∀ other, other ≠ .indirect → other ≠ pointed →
      target after ino other = target disk ino other)
    (nonzero : block ≠ 0) (fresh : ¬ used block) (cleared : after block = zeroBlock)
    (marked : ∀ other, used' other ↔ used other ∨ other = block) :
    Accounting (Owns freemapblocks after live) used' ∧ Alike live disk after := by
  refine ⟨attach books pointed alive
    (fun other otherAlive different => (others other otherAlive different).pointer) absent pointers
    nonzero fresh marked, alike_of_others ino rootLive others changes.type changes.linkcount
    fun _ => ⟨changes.size, contents_of_targets fun other data => ?_⟩⟩
  obtain rfl | here := eq_or_ne other pointed
  · have attached := (pointers other).trans (if_pos rfl)
    unfold target
    rw [absent, attached, if_pos rfl]
    by_cases zero : block = 0
    · rw [if_pos zero]
    · rw [if_neg zero, cleared]
  · exact targets other data here

theorem detach_within (present : pointer disk ino pointed ≠ 0)
    (pointers : ∀ other, pointer after ino other =
      if other = pointed then 0 else pointer disk ino other)
    (regular : ino ≠ rootdirIno)
    (unmarked : ∀ other, used' other ↔ used other ∧ other ≠ pointer disk ino pointed) :
    Accounting (Owns freemapblocks after live) used' ∧ Alike live disk after :=
  ⟨detach books pointed alive
    (fun other otherAlive different => (others other otherAlive different).pointer) present pointers
    unmarked, alike_of_others ino rootLive others changes.type changes.linkcount
    (fun root => absurd root regular)⟩

end pointer

section inode

variable (books : Accounting (Owns freemapblocks disk live) used) (alive : live ino)

include books alive

theorem others_of_inode (data : Block) (other : Ino) (otherAlive : live other)
    (different : other ≠ ino) : SameFile disk (update disk ino data) other :=
  (outside_of_inode books alive otherAlive different).same

/-- The entries of an indirect block do not move when the inode changes around its
pointer. -/
theorem entry_of_inode (same : dinode.indirect = (node disk ino).indirect) (index : Fin 128) :
    pointer (update disk ino dinode.encode) ino (.entry index) =
      pointer disk ino (.entry index) := by
  simp only [pointer, node_update_self, Dinode.decode_encode, same]
  by_cases absent : (node disk ino).indirect = 0
  · simp [absent]
  · have apart : (node disk ino).indirect ≠ ino := pointer_ne_inode books .indirect alive absent
    simp [update_of_ne apart]

/-- The other blocks of the file do not change with its inode. -/
theorem target_of_inode (same : pointer (update disk ino dinode.encode) ino pointed =
      pointer disk ino pointed) :
    target (update disk ino dinode.encode) ino pointed = target disk ino pointed :=
  target_of_pointer same (fun present =>
    update_of_ne (pointer_ne_inode books pointed alive present) _ _)

/-- The pointers of a file with another direct pointer. -/
theorem pointer_of_direct {index : Fin 15} {value : Ino}
    (direct : dinode.direct = update (node disk ino).direct index value)
    (indirect : dinode.indirect = (node disk ino).indirect) (pointed : Pointer) :
    pointer (update disk ino dinode.encode) ino pointed =
      if pointed = .direct index then value else pointer disk ino pointed := by
  cases pointed with
  | direct other =>
    simp [pointer, node_update_self, Dinode.decode_encode, direct, Pointer.direct.injEq,
      update_apply]
  | indirect => simp [node_update_self, Dinode.decode_encode, indirect]
  | entry other => exact entry_of_inode books alive indirect other

omit books alive in
/-- The pointers of a file with another indirect block, when neither has entries. -/
theorem pointer_of_indirect {value : Ino} (direct : dinode.direct = (node disk ino).direct)
    (indirect : dinode.indirect = value) (empty : ∀ index, pointer disk ino (.entry index) = 0)
    (cleared : value ≠ 0 → update disk ino dinode.encode value = zeroBlock) (pointed : Pointer) :
    pointer (update disk ino dinode.encode) ino pointed =
      if pointed = .indirect then value else pointer disk ino pointed := by
  cases pointed with
  | direct other => simp [node_update_self, Dinode.decode_encode, direct]
  | indirect => simp [node_update_self, Dinode.decode_encode, indirect]
  | entry other =>
    simp only [reduceCtorEq, if_false, empty]
    simp only [pointer, node_update_self, Dinode.decode_encode, indirect]
    by_cases zero : value = 0
    · rw [if_pos zero]
    · rw [if_neg zero, cleared zero, words_zero]

theorem attach_inode (pointed : Pointer) (dinode : Dinode) (changes : Rewrites (node disk ino) dinode)
    (absent : pointer disk ino pointed = 0)
    (pointers : ∀ other, pointer (update disk ino dinode.encode) ino other =
      if other = pointed then block else pointer disk ino other)
    (nonzero : block ≠ 0) (fresh : ¬ used block) (cleared : disk block = zeroBlock)
    (rootLive : live rootdirIno) (marked : ∀ other, used' other ↔ used other ∨ other = block) :
    Accounting (Owns freemapblocks (update disk ino dinode.encode) live) used' ∧
      Alike live disk (update disk ino dinode.encode) := by
  have self : node (update disk ino dinode.encode) ino = dinode := by
    rw [node_update_self, Dinode.decode_encode]
  have apart : block ≠ ino := books.ne_of_unused (.inode ino) fresh ⟨alive, rfl⟩
  refine attach_within books alive pointed (others_of_inode books alive dinode.encode)
    (self.symm ▸ changes) rootLive absent pointers (fun other _ elsewhere => ?_) nonzero fresh ?_ marked
  · exact target_of_inode books alive ((pointers other).trans (if_neg elsewhere))
  · rw [update_of_ne apart, cleared]

theorem detach_inode (pointed : Pointer) (dinode : Dinode) (changes : Rewrites (node disk ino) dinode)
    (present : pointer disk ino pointed ≠ 0)
    (pointers : ∀ other, pointer (update disk ino dinode.encode) ino other =
      if other = pointed then 0 else pointer disk ino other)
    (regular : ino ≠ rootdirIno) (rootLive : live rootdirIno)
    (unmarked : ∀ other, used' other ↔ used other ∧ other ≠ pointer disk ino pointed) :
    Accounting (Owns freemapblocks (update disk ino dinode.encode) live) used' ∧
      Alike live disk (update disk ino dinode.encode) := by
  have self : node (update disk ino dinode.encode) ino = dinode := by
    rw [node_update_self, Dinode.decode_encode]
  exact detach_within books alive pointed (others_of_inode books alive dinode.encode)
    (self.symm ▸ changes) rootLive present pointers regular unmarked

section

variable (dinode : Dinode) (direct : dinode.direct = (node disk ino).direct)
  (indirect : dinode.indirect = (node disk ino).indirect)

include direct indirect

/-- The pointers of a file when its inode changes apart from them. -/
theorem pointers_of_inode (pointed : Pointer) :
    pointer (update disk ino dinode.encode) ino pointed = pointer disk ino pointed := by
  cases pointed with
  | direct index => simp [node_update_self, Dinode.decode_encode, direct]
  | indirect => simp [node_update_self, Dinode.decode_encode, indirect]
  | entry index => exact entry_of_inode books alive indirect index

/-- Change what an inode says apart from its pointers. -/
theorem books_of_inode :
    Accounting (Owns freemapblocks (update disk ino dinode.encode) live) used := by
  refine books.congr (owns_congr fun other otherAlive pointed => ?_) (fun _ => Iff.rfl)
  obtain rfl | same := eq_or_ne other ino
  · exact pointers_of_inode books alive dinode direct indirect pointed
  · exact (others_of_inode books alive dinode.encode other otherAlive same).pointer pointed

/-- A file reads as before when its inode changes apart from its pointers. -/
theorem contents_of_inode (fileblock : Nat) :
    contents (update disk ino dinode.encode) ino fileblock = contents disk ino fileblock :=
  contents_of_targets (fun pointed _ => target_of_inode books alive
    (pointers_of_inode books alive dinode direct indirect pointed)) fileblock

end

theorem alike_of_size (dinode : Dinode) (type : dinode.type = (node disk ino).type)
    (linkcount : dinode.linkcount = (node disk ino).linkcount) (regular : ino ≠ rootdirIno)
    (rootLive : live rootdirIno) :
    Alike live disk (update disk ino dinode.encode) := by
  refine alike_of_others ino rootLive (others_of_inode books alive dinode.encode) ?_ ?_
    (fun root => absurd root regular)
  · rw [node_update_self, Dinode.decode_encode, type]
  · rw [node_update_self, Dinode.decode_encode, linkcount]

end inode

section indirect

variable (books : Accounting (Owns freemapblocks disk live) used) (alive : live ino)
  (present : (node disk ino).indirect ≠ 0)

include books alive present

/-- Changing the indirect block of a file leaves the other files alone. -/
theorem others_of_indirect (data : Block) (other : Ino) (otherAlive : live other)
    (different : other ≠ ino) :
    SameFile disk (update disk (node disk ino).indirect data) other :=
  (outside_of_pointer books .indirect alive otherAlive different present).same

theorem node_of_indirect (data : Block) :
    node (update disk (node disk ino).indirect data) ino = node disk ino :=
  node_update_of_ne (Ne.symm (pointer_ne_inode books .indirect alive present))

theorem rewrites_of_indirect {data : Block} :
    Rewrites (node disk ino) (node (update disk (node disk ino).indirect data) ino) := by
  rw [node_of_indirect books alive present]
  exact ⟨rfl, rfl, rfl⟩

theorem pointer_of_entry (index : Fin 128) (value : BitVec 32) (pointed : Pointer) :
    pointer (update disk (node disk ino).indirect
        (ofWords (update (words (disk (node disk ino).indirect)) index value))) ino pointed =
      if pointed = .entry index then value else pointer disk ino pointed := by
  have self := node_of_indirect books alive present
    (ofWords (update (words (disk (node disk ino).indirect)) index value))
  cases pointed with
  | direct other | indirect => simp [self]
  | entry other =>
    simp only [pointer, self, present, if_false, update_self, words_of_words,
      Pointer.entry.injEq, update_apply]

/-- Set an entry of the indirect block to a fresh block. -/
theorem attach_entry (index : Fin 128) (absent : words (disk (node disk ino).indirect) index = 0)
    (nonzero : block ≠ 0) (fresh : ¬ used block) (cleared : disk block = zeroBlock)
    (rootLive : live rootdirIno) (marked : ∀ other, used' other ↔ used other ∨ other = block) :
    Accounting (Owns freemapblocks (update disk (node disk ino).indirect
        (ofWords (update (words (disk (node disk ino).indirect)) index block))) live) used' ∧
      Alike live disk (update disk (node disk ino).indirect
        (ofWords (update (words (disk (node disk ino).indirect)) index block))) := by
  have pointers := pointer_of_entry books alive present index block
  have was : pointer disk ino (.entry index) = 0 := by
    simp only [pointer, present, if_false, absent]
  have apart : block ≠ (node disk ino).indirect :=
    books.ne_of_unused (.block ino .indirect) fresh ⟨alive, present, rfl⟩
  refine attach_within books alive (.entry index) (others_of_indirect books alive present _)
    (rewrites_of_indirect books alive present) rootLive was pointers
    (fun pointed data elsewhere => ?_) nonzero fresh ?_ marked
  · refine target_of_pointer ((pointers pointed).trans (if_neg elsewhere)) (fun there => ?_)
    have different : pointer disk ino pointed ≠ pointer disk ino .indirect :=
      pointer_ne_pointer books pointed .indirect alive there present data
    exact update_of_ne different _ _
  · rw [update_of_ne apart, cleared]

/-- Clear an entry of the indirect block of a regular file. -/
theorem detach_entry {index : Fin 128} (entered : words (disk (node disk ino).indirect) index ≠ 0)
    (regular : ino ≠ rootdirIno) (rootLive : live rootdirIno)
    (unmarked : ∀ other, used' other ↔
      used other ∧ other ≠ words (disk (node disk ino).indirect) index) :
    Accounting (Owns freemapblocks (update disk (node disk ino).indirect
        (ofWords (update (words (disk (node disk ino).indirect)) index 0))) live) used' ∧
      Alike live disk (update disk (node disk ino).indirect
        (ofWords (update (words (disk (node disk ino).indirect)) index 0))) := by
  have was : pointer disk ino (.entry index) = words (disk (node disk ino).indirect) index := by
    simp only [pointer, present, if_false]
  rw [← was] at entered unmarked
  exact detach_within books alive (.entry index) (others_of_indirect books alive present _)
    (rewrites_of_indirect books alive present) rootLive entered
    (pointer_of_entry books alive present index 0) regular unmarked

end indirect

section data

variable (books : Accounting (Owns freemapblocks disk live) used) (alive : live ino)
  {pointed : Pointer} (present : pointer disk ino pointed ≠ 0)

include books alive present

/-- Writing a block of data does not change the pointers of its file. -/
theorem pointer_of_data (data : pointed ≠ .indirect) (written : Block) (other : Pointer) :
    pointer (update disk (pointer disk ino pointed) written) ino other =
      pointer disk ino other := by
  have self : node (update disk (pointer disk ino pointed) written) ino = node disk ino :=
    node_update_of_ne (Ne.symm (pointer_ne_inode books pointed alive present))
  have apart : (node disk ino).indirect ≠ 0 →
      (node disk ino).indirect ≠ pointer disk ino pointed := fun there =>
    pointer_ne_pointer books .indirect pointed alive there present (Ne.symm data)
  generalize pointer disk ino pointed = block at self apart
  cases other with
  | direct index | indirect => simp only [pointer, self]
  | entry index =>
    simp only [pointer, self]
    by_cases absent : (node disk ino).indirect = 0
    · simp only [absent, if_true]
    · simp only [absent, if_false, update_of_ne (apart absent)]

theorem books_of_data (data : pointed ≠ .indirect) (written : Block) :
    Accounting (Owns freemapblocks (update disk (pointer disk ino pointed) written) live)
      used := by
  refine books.congr (owns_congr fun other otherAlive place => ?_) (fun _ => Iff.rfl)
  obtain rfl | same := eq_or_ne other ino
  · exact pointer_of_data books alive present data written place
  · exact (outside_of_pointer books pointed alive otherAlive same present).same.pointer place

/-- Writing a block of data of a regular file leaves the volume alike. -/
theorem alike_of_data (regular : ino ≠ rootdirIno) (rootLive : live rootdirIno) (written : Block) :
    Alike live disk (update disk (pointer disk ino pointed) written) := by
  have self : node (update disk (pointer disk ino pointed) written) ino = node disk ino :=
    node_update_of_ne (Ne.symm (pointer_ne_inode books pointed alive present))
  refine alike_of_others ino rootLive (fun other otherAlive different =>
      (outside_of_pointer books pointed alive otherAlive different present).same) ?_ ?_
    (fun root => absurd root regular)
  · rw [self]
  · rw [self]

end data

end Os161.Sfs
