import Os161.Sfs.Fsops

/-!
# Making and mounting a volume

`mksfs` marks the superblock, the root directory and the freemap as used, and the
bits past the end of the volume, and writes these structures to the disk; the other
blocks keep what they held. It refuses a freemap of more than 32 blocks, and fails
on a disk too small for the structures. The size of the freemap is computed in 32
bits, so for the largest disks it comes out as zero.

A mount of such a volume has the freemap as it was written. If its size did not
wrap, the file system is consistent.
-/
namespace Os161.Sfs

open Os161.Kern Os161.Library Os161.Library.Program Function
open Ensures (bind_done)

/-- A volume name without one trailing colon. A colon elsewhere is illegal. -/
def stripColon (volname : CString) : Option CString :=
  if (volname.bytes.dropWhile (· ≠ 0x3a)).length ≤ 1 then
    some ⟨volname.bytes.takeWhile (· ≠ 0x3a),
      fun byte member => volname.nonzero byte (List.takeWhile_prefix _ |>.subset member)⟩
  else none

/-- `allocblock`, which asserts that the block was not marked. -/
def allocblock (freemapbuf : Bitmap) (block : Nat) : Option Bitmap :=
  if bitmapIsset freemapbuf block = true then none else some (freemapbuf.set block)

/-- Mark blocks in order. -/
def allocblocks (freemapbuf : Bitmap) : List Nat → Option Bitmap
  | [] => some freemapbuf
  | block :: rest => do
    let marked ← allocblock freemapbuf block
    allocblocks marked rest

/-- `initfreemap`: the superblock and the root inode, the freemap, and the bits past
the end of the volume. The buffer has room for 32 blocks. -/
def initfreemap (fsblocks : BitVec 32) : Option Bitmap :=
  if 32 < (sfsFreemapblocks fsblocks).toNat then none
  else allocblocks ⟨131072, fun _ => 0⟩
    ([0, 1] ++ List.range' freemapStart (sfsFreemapblocks fsblocks).toNat ++
      List.range' fsblocks.toNat ((sfsFreemapbits fsblocks).toNat - fsblocks.toNat))

/-- `diskwrite`, which fails past the end of the disk. -/
def diskwrite (nblocks : BitVec 32) (sectors : Nat → Block) (block : Nat) (data : Block) :
    Option (Nat → Block) :=
  if block < nblocks.toNat then some (update sectors block data) else none

def writesuper (nblocks : BitVec 32) (volname : CString) (sectors : Nat → Block) :
    Option (Nat → Block) :=
  if 32 ≤ volname.length then none
  else diskwrite nblocks sectors 0
    (Superblock.encode ⟨sfsMagic, nblocks, fun index => volname.bytes.getD index 0⟩)

/-- `writefreemap`, up to a number of blocks. -/
def writefreemap (nblocks : BitVec 32) (freemapbuf : Bitmap) (sectors : Nat → Block) :
    Nat → Option (Nat → Block)
  | 0 => some sectors
  | count + 1 => do
    let earlier ← writefreemap nblocks freemapbuf sectors count
    diskwrite nblocks earlier (freemapStart + count) (freemapBlock freemapbuf count)

/-- The inode of an empty root directory. -/
def rootInode : Dinode := { Dinode.zero with type := typeDir, linkcount := 1 }

def writerootdir (nblocks : BitVec 32) (sectors : Nat → Block) : Option (Nat → Block) :=
  diskwrite nblocks sectors rootdirIno.toNat rootInode.encode

/-- `mksfs` on a disk of a number of blocks, with what they hold. -/
def mksfs (nblocks : BitVec 32) (sectors : Nat → Block) (volname : CString) :
    Option (Nat → Block) := do
  let name ← stripColon volname
  if 0x2f ∈ name.bytes then none
  else do
    let freemapbuf ← initfreemap nblocks
    let super ← writesuper nblocks name sectors
    let freemap ← writefreemap nblocks freemapbuf super (sfsFreemapblocks nblocks).toNat
    writerootdir nblocks freemap

/-- A disk with an image on it that never fails. -/
def steadyDisk (nblocks : BitVec 32) (image : Nat → Block) : Device :=
  ⟨image, nblocks.toNat, fun _ => true⟩

variable {sectors : Nat → Block} {freemapbuf : Bitmap} {nblocks : BitVec 32}

/-- Marking succeeds when the blocks are different and not marked, and marks them. -/
theorem allocblocks_marks {after : Bitmap} {blocks : List Nat}
    (marked : allocblocks freemapbuf blocks = some after) :
    blocks.Nodup ∧ (∀ block, block ∈ blocks → bitmapIsset freemapbuf block = false) ∧
      ∀ index, bitmapIsset after index = (decide (index ∈ blocks) || bitmapIsset freemapbuf index) := by
  induction blocks generalizing freemapbuf with
  | nil =>
    cases marked
    exact ⟨List.nodup_nil, nofun, fun index => by simp⟩
  | cons block rest ih =>
    unfold allocblocks allocblock at marked
    by_cases set : bitmapIsset freemapbuf block = true
    · rw [if_pos set] at marked
      cases marked
    rw [if_neg set] at marked
    obtain ⟨nodup, clear, bits⟩ := ih marked
    have clear' : ∀ other, other ∈ rest → other ≠ block ∧ bitmapIsset freemapbuf other = false := by
      intro other member
      have unset := clear other member
      rw [isset_set, Bool.or_eq_false_iff, decide_eq_false_iff_not] at unset
      exact unset
    refine ⟨List.nodup_cons.mpr ⟨fun member => (clear' block member).1 rfl, nodup⟩, ?_, ?_⟩
    · intro other member
      rcases List.mem_cons.mp member with rfl | later
      · exact Bool.eq_false_iff.mpr set
      · exact (clear' other later).2
    · intro index
      rw [bits, isset_set]
      by_cases here : index = block
      · simp [here]
      · simp [here]

theorem diskwrite_writes {after : Nat → Block} {block : Nat} {data : Block}
    (written : diskwrite nblocks sectors block data = some after) :
    block < nblocks.toNat ∧ after = update sectors block data := by
  unfold diskwrite at written
  by_cases inside : block < nblocks.toNat
  · rw [if_pos inside] at written
    exact ⟨inside, (Option.some.inj written).symm⟩
  · rw [if_neg inside] at written
    cases written

/-- The blocks of the freemap are written, and nothing else. -/
theorem writefreemap_writes {after : Nat → Block} {count : Nat}
    (written : writefreemap nblocks freemapbuf sectors count = some after) :
    (∀ j, j < count → after (freemapStart + j) = freemapBlock freemapbuf j) ∧
      ∀ block, block < freemapStart → after block = sectors block := by
  induction count generalizing after with
  | zero =>
    cases written
    exact ⟨fun j below => absurd below (Nat.not_lt_zero j), fun _ _ => rfl⟩
  | succ count ih =>
    obtain ⟨earlier, before, last⟩ := Option.bind_eq_some_iff.mp written
    obtain ⟨blocks, others⟩ := ih before
    obtain ⟨_, rfl⟩ := diskwrite_writes last
    constructor
    · intro j below
      by_cases here : j = count
      · rw [here, update_self]
      · rw [update_of_ne (by omega)]
        exact blocks j (by omega)
    · intro block below
      rw [update_of_ne (by omega)]
      exact others block below

/-- What `mksfs` leaves on a disk: the superblock, the root inode, and a freemap with
the bits of these, of itself, and of what is past the end. -/
structure Formatted (nblocks : BitVec 32) (image : Nat → Block) : Prop where
  size : 3 ≤ nblocks.toNat
  small : (sfsFreemapblocks nblocks).toNat ≤ 32
  super : ∃ volname, image 0 = Superblock.encode ⟨sfsMagic, nblocks, volname⟩
  root : image 1 = rootInode.encode
  freemap : ∃ freemapbuf : Bitmap, (∀ j, j < (sfsFreemapblocks nblocks).toNat →
      image (freemapStart + j) = freemapBlock freemapbuf j) ∧
    ∀ index, bitmapIsset freemapbuf index = true ↔
      index < freemapStart + (sfsFreemapblocks nblocks).toNat ∨
        (nblocks.toNat ≤ index ∧ index < (sfsFreemapbits nblocks).toNat)

/-- The bits `initfreemap` sets, and the sizes it accepts. -/
theorem initfreemap_bits {fsblocks : BitVec 32} (marked : initfreemap fsblocks = some freemapbuf) :
    (sfsFreemapblocks fsblocks).toNat ≤ 32 ∧ (fsblocks.toNat = 0 ∨ 3 ≤ fsblocks.toNat) ∧
      ∀ index, bitmapIsset freemapbuf index = true ↔
        index < freemapStart + (sfsFreemapblocks fsblocks).toNat ∨
          (fsblocks.toNat ≤ index ∧ index < (sfsFreemapbits fsblocks).toNat) := by
  have bits := freemapbits_to_nat fsblocks
  have blocks := freemapblocks_to_nat fsblocks
  unfold initfreemap at marked
  by_cases large : 32 < (sfsFreemapblocks fsblocks).toNat
  · rw [if_pos large] at marked
    cases marked
  rw [if_neg large] at marked
  obtain ⟨nodup, _, isset⟩ := allocblocks_marks marked
  refine ⟨Nat.le_of_not_lt large, ?_, fun index => ?_⟩
  · by_contra tiny
    have apart := (List.nodup_append.mp nodup).2.2 fsblocks.toNat (List.mem_append.mpr (by
        by_cases one : fsblocks.toNat = 1
        · exact Or.inl (by simp [one])
        · exact Or.inr (List.mem_range'_1.mpr (by unfold freemapStart; omega))))
      fsblocks.toNat (List.mem_range'_1.mpr (by omega))
    exact apart rfl
  · have clear : bitmapIsset ⟨131072, fun _ => 0⟩ index = false := by
      rw [bitmap_isset_eq]
      exact BitVec.getLsbD_zero
    rw [isset, clear, Bool.or_false, decide_eq_true_eq, List.mem_append, List.mem_append,
      List.mem_range'_1, List.mem_range'_1]
    simp only [List.mem_cons, List.not_mem_nil, or_false]
    unfold freemapStart
    omega

/-- What `mksfs` writes is a formatted volume. -/
theorem formatted_of_mksfs {image : Nat → Block} {volname : CString}
    (made : mksfs nblocks sectors volname = some image) : Formatted nblocks image := by
  obtain ⟨name, _, made⟩ := Option.bind_eq_some_iff.mp made
  by_cases slash : 0x2f ∈ name.bytes
  · rw [if_pos slash] at made
    cases made
  rw [if_neg slash] at made
  obtain ⟨freemapbuf, marked, made⟩ := Option.bind_eq_some_iff.mp made
  obtain ⟨super, first, made⟩ := Option.bind_eq_some_iff.mp made
  obtain ⟨freemap, second, third⟩ := Option.bind_eq_some_iff.mp made
  obtain ⟨small, size, isset⟩ := initfreemap_bits marked
  obtain ⟨blocks, others⟩ := writefreemap_writes second
  have one : rootdirIno.toNat = 1 := rfl
  unfold writesuper at first
  by_cases long : 32 ≤ name.length
  · rw [if_pos long] at first
    cases first
  rw [if_neg long] at first
  obtain ⟨nonempty, rfl⟩ := diskwrite_writes first
  obtain ⟨_, rfl⟩ := diskwrite_writes third
  refine ⟨by omega, small, ⟨fun index => name.bytes.getD index 0, ?_⟩, ?_, freemapbuf,
    fun j below => ?_, isset⟩
  · rw [update_of_ne (by omega), others 0 (by decide), update_self]
  · rw [one, update_self]
  · rw [update_of_ne (by unfold freemapStart; omega), blocks j below]

/-- The file system with other bytes in its freemap. -/
def Fs.mapped (fs : Fs) (v : Nat → Byte) : Fs :=
  { fs with freemap := { fs.freemap with v := v } }

/-- Reading the freemap fills it with the blocks on the device. -/
theorem sfs_freemapio_read_ensures (fs : Fs) (answers : fs.device.answers = fun _ => true)
    (inside : freemapStart + (sfsFreemapblocks fs.sb.nblocks).toNat ≤ fs.device.nsect) :
    Succeeds (sfsFreemapio .read) fs (fun _ after => ∃ v : Nat → Byte, after = fs.mapped v ∧
        ∀ ix, ix < 512 * (sfsFreemapblocks fs.sb.nblocks).toNat →
          v ix = fs.device.sectors (freemapStart + ix / 512) ⟨ix % 512, Nat.mod_lt _ (by decide)⟩) := by
  have blocks := freemapblocks_to_nat fs.sb.nblocks
  refine bind_done rfl ?_
  dsimp only
  refine ensures_count_up (sfsFreemapioRound .read) (fun bound _ after => ∃ v : Nat → Byte,
    after = fs.mapped v ∧ ∀ ix, ix < 512 * bound →
      v ix = fs.device.sectors (freemapStart + ix / 512) ⟨ix % 512, Nat.mod_lt _ (by decide)⟩) ()
    ⟨fs.freemap.v, rfl, fun ix below => absurd below (by omega)⟩ ?_
  rintro j _ _ below ⟨v, rfl, earlier⟩
  have number : (BitVec.ofNat 32 (freemapStart + j)).toNat = freemapStart + j := by
    exact Nat.mod_eq_of_lt (by unfold freemapStart; omega)
  have answering : (fs.mapped v).device.answers = fun _ => true := answers
  have inside' : (BitVec.ofNat 32 (freemapStart + j)).toNat < (fs.mapped v).device.nsect := by
    rw [number]
    exact Nat.lt_of_lt_of_le (Nat.add_lt_add_left below freemapStart) inside
  refine bind_done (readblock_answered answering _ inside') ?_
  refine ensures_change ⟨_, rfl, fun ix bound => ?_⟩
  rw [number]
  by_cases here : 512 * j ≤ ix ∧ ix < 512 * j + 512
  · have quotient : ix / 512 = j := by omega
    have remainder : ix - 512 * j = ix % 512 := by omega
    simp only [here, and_self, dif_pos, quotient, remainder]
    rfl
  · simp only [here, dif_neg, not_false_iff]
    exact earlier ix (by omega)

/-- A file system as it is after mounting a new volume: nothing is loaded, and the
freemap is the one on the disk. -/
structure Fresh (nblocks : BitVec 32) (image : Nat → Block) (fs : Fs) : Prop where
  size : fs.sb.nblocks = nblocks
  clean : fs.superdirty = false ∧ fs.freemapdirty = false
  device : fs.device = steadyDisk nblocks image
  vnodes : fs.vnodes = []
  heap : fs.heap = fun _ => none
  nbits : fs.freemap.nbits = (sfsFreemapbits nblocks).toNat
  bits : ∀ index, index < fs.freemap.nbits → (bitmapIsset fs.freemap index = true ↔
    index < freemapStart + (sfsFreemapblocks nblocks).toNat ∨ nblocks.toNat ≤ index)

section mounting

variable {nblocks : BitVec 32} {image : Nat → Block} (formatted : Formatted nblocks image)

include formatted

/-- Mounting a new volume succeeds unless memory runs out. -/
theorem sfs_domount_ensures {memory : Nat → Bool} {created : Fs}
    (create : sfsFsCreate (steadyDisk nblocks image) memory = some created) (garbage : Nat → Byte) :
    Ensures False (sfsDomount garbage) created (fun _ => Fresh nblocks image)
      (fun _ _ => memory 2 = false ∨ memory 3 = false) := by
  unfold sfsFsCreate at create
  split at create
  · cases create
    have size := formatted.size
    have blocks := freemapblocks_to_nat nblocks
    have bits := freemapbits_to_nat nblocks
    obtain ⟨volname, super⟩ := formatted.super
    obtain ⟨freemapbuf, stored, isset⟩ := formatted.freemap
    have decoded : Superblock.decode ((steadyDisk nblocks image).sectors (0 : Ino).toNat) =
        ⟨sfsMagic, nblocks, volname⟩ := by
      rw [show (steadyDisk nblocks image).sectors (0 : Ino).toNat = image 0 from rfl, super,
        Superblock.decode_encode]
    refine bind_done (readblock_answered rfl 0 (by
      show 0 < nblocks.toNat
      omega)) ?_
    rw [decoded]
    refine bind_done rfl (bind_done rfl ?_)
    refine bind_done rfl (bind_done rfl (bind_done rfl (bind_done rfl ?_)))
    dsimp only
    by_cases room : memory 2 = true ∧ memory 3 = true
    · rw [if_pos room]
      have created := bitmap_create_bytes garbage (sfsFreemapbits nblocks).toNat (by omega) (by omega)
      rw [show (terminate ⟨sfsMagic, nblocks, volname⟩).nblocks = nblocks from rfl, created]
      refine bind_done rfl ((sfs_freemapio_read_ensures _ rfl ?_).weaken ?_
        nofun)
      · show freemapStart + (sfsFreemapblocks nblocks).toNat ≤ nblocks.toNat
        unfold freemapStart
        omega
      · rintro _ after ⟨bytes, rfl, read⟩
        refine ⟨rfl, ⟨rfl, rfl⟩, rfl, rfl, rfl, rfl, fun index below => ?_⟩
        have below : index < (sfsFreemapbits nblocks).toNat := below
        have block := read (index / 8) (by
          show index / 8 < 512 * (sfsFreemapblocks nblocks).toNat
          omega)
        have byte : bytes (index / 8) = freemapbuf.v (index / 8) := by
          rw [block]
          show image _ _ = _
          rw [stored _ (by omega)]
          unfold freemapBlock
          congr 1
          exact Nat.div_add_mod _ _
        have same : bitmapIsset freemapbuf index = (freemapbuf.v (index / 8)).getLsbD (index % 8) :=
          bitmap_isset_eq _ _
        rw [bitmap_isset_eq]
        show (bytes (index / 8)).getLsbD (index % 8) = true ↔ _
        rw [byte, ← same, isset]
        omega
    · rw [if_neg room]
      refine ensures_fail ?_
      rw [not_and_or] at room
      simpa using room
  · cases create

section

variable {fs : Fs} (fresh : Fresh nblocks image fs)

include fresh

/-- A volume that was just mounted reads as an empty root directory. -/
theorem Fresh.node_root : node (disk fs) rootdirIno = rootInode := by
  have stored : disk fs rootdirIno = image 1 := by
    simp only [disk, fresh.heap, fresh.device]
    rfl
  unfold node
  rw [stored, formatted.root, Dinode.decode_encode]

theorem Fresh.directory_empty : directory (disk fs) = [] := by
  unfold directory nentries
  rw [fresh.node_root formatted]
  rfl

theorem Fresh.pointer_root (pointed : Pointer) : pointer (disk fs) rootdirIno pointed = 0 := by
  have same := fresh.node_root formatted
  cases pointed with
  | direct index | indirect | entry index =>
    simp only [pointer, same]
    rfl

theorem Fresh.live_iff (ino : Ino) : live fs ino ↔ ino = rootdirIno := by
  unfold live Live Loaded
  rw [fresh.directory_empty formatted, fresh.heap]
  simp [Named]

/-- A block of a new volume is owned exactly when it is one of the first: the
superblock, the root inode and the freemap. -/
theorem Fresh.owns (way : Way) (block : Ino) :
    Owns (fs.freemap.nbits / 4096) (disk fs) (live fs) way block ↔
      (way = .super ∧ block = 0) ∨ (way = .inode rootdirIno ∧ block = 1) ∨
        ∃ index, way = .freemap index ∧ index < fs.freemap.nbits / 4096 ∧
          block.toNat = freemapStart + index := by
  cases way with
  | super | freemap index => simp [Owns]
  | inode ino =>
    simp only [Owns, fresh.live_iff formatted, reduceCtorEq, false_and, Way.inode.injEq, false_or,
      exists_false, or_false]
    constructor
    · rintro ⟨rfl, rfl⟩
      exact ⟨rfl, rfl⟩
    · rintro ⟨rfl, rfl⟩
      exact ⟨rfl, rfl⟩
  | block ino pointed =>
    simp only [Owns, fresh.live_iff formatted, reduceCtorEq, false_and, exists_false, or_false,
      iff_false]
    rintro ⟨rfl, present, rfl⟩
    exact present (fresh.pointer_root formatted pointed)

/-- On a new volume exactly the blocks it owns are marked. -/
theorem Fresh.books (unwrapped : nblocks.toNat + 4095 < 2 ^ 32) :
    Accounting (Owns (fs.freemap.nbits / 4096) (disk fs) (live fs)) (InUse fs) := by
  have size := formatted.size
  have blocks := freemapblocks_to_nat nblocks
  have bits := freemapbits_to_nat nblocks
  have nbits := fresh.nbits
  constructor
  · intro block
    have zero : block = 0 ↔ block.toNat = 0 := by
      rw [← BitVec.toNat_inj]
      rfl
    have one : block = 1 ↔ block.toNat = 1 := by
      rw [← BitVec.toNat_inj]
      rfl
    have owned : (∃ way, Owns (fs.freemap.nbits / 4096) (disk fs) (live fs) way block) ↔
        block.toNat < freemapStart + fs.freemap.nbits / 4096 := by
      simp only [fresh.owns formatted]
      constructor
      · rintro ⟨_, ⟨_, super⟩ | ⟨_, root⟩ | ⟨index, _, below, number⟩⟩
        · rw [zero.mp super]
          omega
        · rw [one.mp root]
          unfold freemapStart
          omega
        · omega
      · intro first
        unfold freemapStart at first
        by_cases super : block.toNat = 0
        · exact ⟨.super, Or.inl ⟨rfl, zero.mpr super⟩⟩
        · by_cases root : block.toNat = 1
          · exact ⟨.inode rootdirIno, Or.inr (Or.inl ⟨rfl, one.mpr root⟩)⟩
          · exact ⟨.freemap (block.toNat - 2), Or.inr (Or.inr ⟨_, rfl, by omega, by
              unfold freemapStart; omega⟩)⟩
    rw [owned]
    unfold InUse
    rw [fresh.size]
    constructor
    · rintro ⟨volume, below, set⟩
      rcases (fresh.bits block.toNat below).mp set with first | past
      · omega
      · omega
    · intro first
      unfold freemapStart at first
      refine ⟨by omega, by omega, (fresh.bits block.toNat (by omega)).mpr (Or.inl ?_)⟩
      unfold freemapStart
      omega
  · intro first second block left right
    rw [fresh.owns formatted] at left right
    have zero : (0 : Ino).toNat = 0 := rfl
    have one : (1 : Ino).toNat = 1 := rfl
    unfold freemapStart at left right
    rcases left with ⟨rfl, rfl⟩ | ⟨rfl, rfl⟩ | ⟨index, rfl, below, number⟩
    · rcases right with ⟨rfl, _⟩ | ⟨_, wrong⟩ | ⟨_, _, _, wrong⟩
      · rfl
      · cases wrong
      · omega
    · rcases right with ⟨_, wrong⟩ | ⟨rfl, _⟩ | ⟨_, _, _, wrong⟩
      · cases wrong
      · rfl
      · omega
    · rcases right with ⟨_, rfl⟩ | ⟨_, rfl⟩ | ⟨other, rfl, _, same⟩
      · omega
      · omega
      · rw [show index = other by omega]

/-- A new volume whose size does not wrap is consistent once it is mounted. -/
theorem Fresh.consistent (unwrapped : nblocks.toNat + 4095 < 2 ^ 32) : Consistent fs := by
  have small := formatted.small
  have blocks := freemapblocks_to_nat nblocks
  have bits := freemapbits_to_nat nblocks
  have nbits := fresh.nbits
  have root := fresh.node_root formatted
  have empty := fresh.directory_empty formatted
  have absent : ∀ ino sv, fs.heap ino ≠ some sv := by
    intro ino sv
    rw [fresh.heap]
    simp
  refine ⟨⟨⟨⟨?_, ?_, ?_, ?_, ?_⟩, ⟨?_, ?_, ?_, ?_, ?_⟩, ?_⟩, fresh.books formatted unwrapped,
    fun _ used => used⟩, ?_⟩
  · rw [fresh.device]
    rfl
  · rw [fresh.device, fresh.size]
    rfl
  · rw [fresh.size]
    omega
  · rw [fresh.size]
    omega
  · rw [fresh.size]
    intro index past below
    exact (fresh.bits index below).mpr (Or.inr past)
  · rw [fresh.vnodes]
    exact List.nodup_nil
  · intro ino
    rw [fresh.vnodes, Loaded, fresh.heap]
    simp
  · exact fun ino sv found => absurd found (absent ino sv)
  · exact fun ino sv found => absurd found (absent ino sv)
  · exact fun ino sv found => absurd found (absent ino sv)
  · refine ⟨?_, ?_, ?_, ?_, fun ino alive different => ?_, ?_, ?_⟩
    · rw [root]
      rfl
    · rw [root]
      rfl
    · rw [root]
      rfl
    · rw [root]
      decide
    · exact absurd ((fresh.live_iff formatted ino).mp alive) different
    · rw [empty]
      exact nofun
    · rw [empty]
      exact List.Pairwise.nil
  · intro ino alive different
    exact absurd ((fresh.live_iff formatted ino).mp alive) different

end

omit formatted in
theorem Fresh.unreferenced {fs : Fs} (fresh : Fresh nblocks image fs) :
    references fs = fun _ => 0 := by
  funext ino
  unfold references
  rw [fresh.heap]
  rfl

end mounting

end Os161.Sfs
