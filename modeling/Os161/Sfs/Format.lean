import Os161.Kern.Lhd
import Mathlib.Data.Fin.Basic

/-!
# On-disk structures of the file system

Blocks of 512 bytes hold a superblock, an inode, 128 block numbers or eight
directory entries. Integers are big-endian, as the machine has them. Every
structure comes with the way it is laid out in a block and the way it is read
back. An inode and an indirect block fill their blocks, so laying out and reading
back are inverse to each other; the rest of a directory block is not touched when
one of its entries changes.
-/

namespace Os161.Sfs

open Os161.Kern

/-- An inode number or the number of a block: an inode is found in the block of its
number. -/
abbrev Ino := BitVec 32

/-- `SFS_ROOTDIR_INO`. -/
abbrev rootdirIno : Ino := 1

/-- `SFS_FREEMAP_START`. -/
abbrev freemapStart : Nat := 2

abbrev sfsMagic : BitVec 32 := 0xabadf001

/-- The values of `sfi_type`. -/
abbrev typeInval : BitVec 16 := 0

abbrev typeFile : BitVec 16 := 1

abbrev typeDir : BitVec 16 := 2

/-- `SFS_FREEMAPBITS`: the size rounded up to whole blocks of bits, computed in 32
bits. -/
def sfsFreemapbits (nblocks : BitVec 32) : BitVec 32 := (nblocks + 4096 - 1) / 4096 * 4096

def sfsFreemapblocks (nblocks : BitVec 32) : BitVec 32 := sfsFreemapbits nblocks / 4096

/-- The rounding of the number of blocks up to a whole block of bits wraps. -/
theorem freemapbits_to_nat (nblocks : BitVec 32) :
    (sfsFreemapbits nblocks).toNat = (nblocks.toNat + 4095) % 2 ^ 32 / 4096 * 4096 := by
  have size : (4096 : BitVec 32).toNat = 4096 := rfl
  have unit : (1 : BitVec 32).toNat = 1 := rfl
  unfold sfsFreemapbits
  rw [BitVec.toNat_mul, BitVec.toNat_udiv, BitVec.toNat_sub, BitVec.toNat_add, size]
  omega

theorem freemapblocks_to_nat (nblocks : BitVec 32) :
    (sfsFreemapblocks nblocks).toNat = (nblocks.toNat + 4095) % 2 ^ 32 / 4096 := by
  have size : (4096 : BitVec 32).toNat = 4096 := rfl
  unfold sfsFreemapblocks
  rw [BitVec.toNat_udiv, freemapbits_to_nat, size]
  omega

/-- A big-endian word of four bytes. -/
def beWord (first second third fourth : Byte) : BitVec 32 :=
  first ++ second ++ third ++ fourth

/-- A byte of a word, the most significant one first. -/
def beByte (word : BitVec 32) (index : Nat) : Byte :=
  word.extractLsb' (24 - 8 * index) 8

/-- A word is made of its bytes. -/
theorem be_word_bytes (word : BitVec 32) :
    beWord (beByte word 0) (beByte word 1) (beByte word 2) (beByte word 3) = word := by
  unfold beWord beByte
  ext index below
  grind

/-- The bytes of a word are those it was made of. -/
theorem be_byte_word (bytes : Fin 4 → Byte) (index : Fin 4) :
    beByte (beWord (bytes 0) (bytes 1) (bytes 2) (bytes 3)) index = bytes index := by
  unfold beWord beByte
  rcases index with ⟨_ | _ | _ | _ | index, small⟩
  case succ.succ.succ.succ => omega
  all_goals
    ext bit below
    grind

/-- A block as 128 words. -/
def words (block : Block) (index : Fin 128) : BitVec 32 :=
  beWord (block ⟨4 * index, by omega⟩) (block ⟨4 * index + 1, by omega⟩)
    (block ⟨4 * index + 2, by omega⟩) (block ⟨4 * index + 3, by omega⟩)

/-- The block with the given words. -/
def ofWords (values : Fin 128 → BitVec 32) : Block :=
  fun index => beByte (values ⟨index / 4, by omega⟩) (index % 4)

/-- The words of a block are those it was made of, and a block is made of its words. -/
theorem words_of_words (values : Fin 128 → BitVec 32) : words (ofWords values) = values := by
  funext index
  have whole (byte : Nat) (small : byte < 4) : (4 * (index : Nat) + byte) / 4 = index := by omega
  have part (byte : Nat) (small : byte < 4) : (4 * (index : Nat) + byte) % 4 = byte := by omega
  have whole_first := whole 0 (by omega)
  have part_first := part 0 (by omega)
  rw [Nat.add_zero] at whole_first part_first
  simp [words, ofWords, whole_first, part_first, whole, part, be_word_bytes]

theorem of_words_words (block : Block) : ofWords (words block) = block := by
  funext ⟨index, below⟩
  obtain ⟨word, byte, small, rfl⟩ : ∃ word byte, byte < 4 ∧ index = 4 * word + byte :=
    ⟨index / 4, index % 4, by omega, by omega⟩
  have quotient : (4 * word + byte) / 4 = word := by omega
  have remainder : (4 * word + byte) % 4 = byte := by omega
  simp only [words, ofWords, quotient, remainder]
  exact be_byte_word (fun byte => block ⟨4 * word + byte, by omega⟩) ⟨byte, small⟩

/-- A block of zeros. -/
def zeroBlock : Block := fun _ => 0

theorem words_zero (index : Fin 128) : words zeroBlock index = 0 := by
  simp only [words, zeroBlock]
  rfl

/-- `struct sfs_dinode`. -/
structure Dinode where
  size : BitVec 32
  type : BitVec 16
  linkcount : BitVec 16
  direct : Fin 15 → BitVec 32
  indirect : BitVec 32
  waste : Fin 110 → BitVec 32

/-- The words of an inode. Type and link count share the second one. -/
def Dinode.words (dinode : Dinode) (index : Fin 128) : BitVec 32 :=
  if index.val = 0 then dinode.size
  else if index.val = 1 then dinode.type ++ dinode.linkcount
  else if direct : index.val < 17 then dinode.direct ⟨index - 2, by omega⟩
  else if index.val = 17 then dinode.indirect
  else dinode.waste ⟨index - 18, by omega⟩

/-- An inode as it stands in its block. -/
def Dinode.encode (dinode : Dinode) : Block := ofWords dinode.words

/-- The inode a block holds. -/
def Dinode.decode (block : Block) : Dinode where
  size := Sfs.words block 0
  type := (Sfs.words block 1).extractLsb' 16 16
  linkcount := (Sfs.words block 1).extractLsb' 0 16
  direct := fun index => Sfs.words block ⟨2 + index, by omega⟩
  indirect := Sfs.words block 17
  waste := fun index => Sfs.words block ⟨18 + index, by omega⟩

theorem halves (high low : BitVec 16) : (high ++ low : BitVec 32).extractLsb' 16 16 = high ∧
      (high ++ low : BitVec 32).extractLsb' 0 16 = low := by
  constructor
  · ext index below
    grind
  · ext index below
    grind

/-- An inode written to a block is read back. -/
theorem Dinode.decode_encode (dinode : Dinode) : Dinode.decode dinode.encode = dinode := by
  obtain ⟨size, type, linkcount, direct, indirect, waste⟩ := dinode
  have split := halves type linkcount
  unfold Dinode.decode Dinode.encode
  rw [words_of_words]
  simp only [Dinode.words, Dinode.mk.injEq]
  refine ⟨rfl, split.1, split.2, ?_, rfl, ?_⟩
  · funext index
    rw [if_neg (by omega), if_neg (by omega), dif_pos (by omega)]
    congr 1
    exact Fin.ext (Nat.add_sub_cancel_left _ _)
  · funext index
    rw [if_neg (by omega), if_neg (by omega), dif_neg (by omega), if_neg (by omega)]
    congr 1
    exact Fin.ext (Nat.add_sub_cancel_left _ _)

/-- Every block is the inode that is read from it. -/
theorem Dinode.encode_decode (block : Block) : (Dinode.decode block).encode = block := by
  have same : (Dinode.decode block).words = Sfs.words block := by
    funext index
    unfold Dinode.words Dinode.decode
    split
    · next first =>
      rw [show index = 0 from Fin.ext first]
    split
    · next second =>
      rw [show index = 1 from Fin.ext second]
      ext index below
      grind
    split
    · next direct =>
      exact congrArg (Sfs.words block) (Fin.ext (Nat.add_sub_cancel' (by omega)))
    · split
      · next indirect =>
        rw [show index = 17 from Fin.ext indirect]
      · exact congrArg (Sfs.words block) (Fin.ext (Nat.add_sub_cancel' (by omega)))
  unfold Dinode.encode
  rw [same, of_words_words]

/-- The inode a cleared block holds. -/
def Dinode.zero : Dinode := ⟨0, 0, 0, fun _ => 0, 0, fun _ => 0⟩

theorem Dinode.decode_zero : Dinode.decode zeroBlock = Dinode.zero := by
  simp only [Dinode.decode, Dinode.zero, words_zero, Dinode.mk.injEq]
  decide

/-- `struct sfs_superblock`, without its reserved words, which nothing reads. -/
structure Superblock where
  magic : BitVec 32
  nblocks : BitVec 32
  volname : Fin 32 → Byte

/-- A superblock as it stands in its block. -/
def Superblock.encode (superblock : Superblock) : Block :=
  fun index =>
    if index.val < 4 then beByte superblock.magic index
    else if index.val < 8 then beByte superblock.nblocks (index - 4)
    else if volname : index.val < 40 then superblock.volname ⟨index - 8, by omega⟩
    else 0

/-- The superblock a block holds. -/
def Superblock.decode (block : Block) : Superblock where
  magic := words block 0
  nblocks := words block 1
  volname := fun index => block ⟨8 + index, by omega⟩

/-- A superblock written to a block is read back. -/
theorem Superblock.decode_encode (superblock : Superblock) :
    Superblock.decode superblock.encode = superblock := by
  obtain ⟨magic, nblocks, volname⟩ := superblock
  simp only [Superblock.decode, Superblock.mk.injEq]
  refine ⟨be_word_bytes magic, be_word_bytes nblocks, ?_⟩
  funext index
  simp only [Superblock.encode]
  rw [if_neg (by omega), if_neg (by omega), dif_pos (by omega)]
  congr 1
  exact Fin.ext (Nat.add_sub_cancel_left _ _)

/-- A C string: bytes other than zero, the terminator left out. -/
structure CString where
  bytes : List Byte
  nonzero : ∀ byte, byte ∈ bytes → byte ≠ 0

/-- `strlen`. -/
def CString.length (name : CString) : Nat := name.bytes.length

/-- `struct sfs_direntry`. -/
structure Direntry where
  ino : Ino
  name : Fin 60 → Byte

/-- A directory entry as it stands in 64 bytes. -/
def Direntry.encode (direntry : Direntry) (index : Fin 64) : Byte :=
  if index.val < 4 then beByte direntry.ino index
  else direntry.name ⟨index - 4, by omega⟩

/-- The directory entry in 64 bytes. -/
def Direntry.decode (bytes : Fin 64 → Byte) : Direntry where
  ino := beWord (bytes 0) (bytes 1) (bytes 2) (bytes 3)
  name := fun index => bytes ⟨4 + index, by omega⟩

/-- A directory entry written to a slot is read back. -/
theorem Direntry.decode_encode (direntry : Direntry) :
    Direntry.decode direntry.encode = direntry := by
  obtain ⟨ino, name⟩ := direntry
  simp only [Direntry.decode, Direntry.mk.injEq]
  refine ⟨be_word_bytes ino, ?_⟩
  funext index
  simp only [Direntry.encode]
  rw [if_neg (by omega)]
  congr 1
  exact Fin.ext (Nat.add_sub_cancel_left _ _)

/-- The entry of a cleared slot. -/
def Direntry.free : Direntry := ⟨0, fun _ => 0⟩

/-- The name in an entry, as a string that ends at the last byte of the field at
the latest. -/
def Direntry.string (direntry : Direntry) : List Byte :=
  ((List.ofFn direntry.name).take 59).takeWhile (· ≠ 0)

/-- The entry with a name that fits, the rest of the field being zero. -/
def Direntry.make (ino : Ino) (name : CString) : Direntry :=
  ⟨ino, fun index => name.bytes.getD index 0⟩

/-- A name of at most 59 bytes is read back as it was stored. -/
theorem Direntry.string_make (ino : Ino) (name : CString) (fits : name.length + 1 ≤ 60) :
    (Direntry.make ino name).string = name.bytes := by
  unfold CString.length at fits
  have field : (List.ofFn (Direntry.make ino name).name).take 59 =
      name.bytes ++ List.replicate (59 - name.bytes.length) 0 := by
    apply List.ext_getElem
    · simp only [List.length_take, List.length_ofFn, List.length_append, List.length_replicate]
      omega
    · intro index below _
      simp only [List.getElem_take, List.getElem_ofFn, Direntry.make, List.getD_eq_getElem?_getD,
        List.getElem_append, List.getElem_replicate]
      by_cases inside : index < name.bytes.length
      · simp [inside]
      · simp [inside]
  unfold Direntry.string
  rw [field, List.takeWhile_append_of_pos (by simpa using name.nonzero)]
  cases 59 - name.bytes.length with
  | zero => simp
  | succ rest => simp [List.replicate_succ]

/-- The bytes of a block from an offset on, for a structure of 64 bytes. -/
def slice (block : Block) (offset : Nat) (index : Fin 64) : Byte :=
  if inside : offset + index < 512 then block ⟨offset + index, inside⟩ else 0

/-- A block with 64 bytes changed from an offset on. -/
def patch (block : Block) (offset : Nat) (bytes : Fin 64 → Byte) : Block :=
  fun index =>
    if inside : offset ≤ index.val ∧ index.val < offset + 64 then
      bytes ⟨index - offset, by omega⟩
    else block index

theorem slice_zero (offset : Nat) : Direntry.decode (slice zeroBlock offset) = Direntry.free := by
  have zeros : slice zeroBlock offset = fun _ => 0 := by
    funext index
    unfold slice zeroBlock
    split <;> rfl
  rw [zeros]
  rfl

theorem slice_patch_same {block : Block} {offset : Nat} {bytes : Fin 64 → Byte}
    (inside : offset + 64 ≤ 512) : slice (patch block offset bytes) offset = bytes := by
  funext index
  unfold slice patch
  rw [dif_pos (by omega), dif_pos (by simp only []; omega)]
  congr 1
  exact Fin.ext (Nat.add_sub_cancel_left _ _)

theorem slice_patch_apart {block : Block} {offset other : Nat} {bytes : Fin 64 → Byte}
    (apart : offset + 64 ≤ other ∨ other + 64 ≤ offset) :
    slice (patch block offset bytes) other = slice block other := by
  funext index
  unfold slice patch
  split
  · rw [dif_neg (by simp only []; omega)]
  · rfl

end Os161.Sfs
