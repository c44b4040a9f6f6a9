import Os161.Sfs.Session

/-!
# Block accounting over whole sessions

In every state of a session on a new volume the freemap marks exactly the blocks
that can be reached, each in one way, and no operation panics, if and only if the
size of the freemap did not wrap when it was computed. On a wrapped volume the
freemap has no bits at all: not even the superblock is marked.
-/
namespace Os161.Sfs

open Os161.Kern Os161.Library Os161.Library.Program Os161.Library.Runs

/-- A block of the volume is marked exactly when it is the superblock, a block of the
freemap, the inode of a file that is linked or loaded, or a block of such a file,
and it is only one of these. -/
def Accounted (fs : Fs) : Prop :=
  Accounting (Owns (sfsFreemapblocks fs.sb.nblocks).toNat (disk fs) (live fs)) (InUse fs)

/-- No operation that users may call panics. -/
def NeverPanics (session : Session) : Prop :=
  ∀ operation, Allowed session operation → ∀ reason, perform operation session.fs ≠ .stop reason

/-- An operation keeps the file system consistent and its references counted. -/
theorem next_orderly {session after : Session} (orderly : Orderly session) {operation : Operation}
    (allowed : Allowed session operation) (taken : next session operation = some after) :
    Orderly after := by
  have ensured := (perform_ensures orderly allowed).outcome
  unfold next at taken
  cases ended : perform operation session.fs with
  | stop reason =>
    rw [ended] at taken
    cases taken
  | fail error fs =>
    rw [ended] at taken ensured
    cases taken
    exact ⟨ensured.consistent, ensured.references.trans orderly.references⟩
  | done result fs =>
    rw [ended] at taken ensured
    cases taken
    exact ⟨ensured.1, ensured.2⟩

theorem Orderly.accounted {session : Session} (orderly : Orderly session) : Accounted session.fs := by
  unfold Accounted
  rw [orderly.consistent.ready.freemapblocks]
  exact orderly.consistent.books

theorem Orderly.never_panics {session : Session} (orderly : Orderly session) :
    NeverPanics session := by
  intro operation allowed reason stopped
  have ensured := (perform_ensures orderly allowed).outcome
  rw [stopped] at ensured
  exact ensured

section volumes

variable {nblocks : BitVec 32} {image : Nat → Block} (formatted : Formatted nblocks image)

include formatted

theorem fresh_of_mounted {fs : Fs} (mounted : Mounted (steadyDisk nblocks image) fs) :
    Fresh nblocks image fs := by
  obtain ⟨memory, garbage, created, create, ran⟩ := mounted
  exact (sfs_domount_ensures formatted create garbage).of_done ran

theorem exists_mounted : ∃ fs, Mounted (steadyDisk nblocks image) fs := by
  have create : ∃ created, sfsFsCreate (steadyDisk nblocks image) (fun _ => true) = some created :=
    ⟨_, rfl⟩
  obtain ⟨created, create⟩ := create
  have ensured := sfs_domount_ensures formatted create (fun _ => 0)
  obtain ⟨_, fs, ran, _⟩ := (ensured.on_failure (fun _ _ failed => by simp at failed)).returned
  exact ⟨fs, _, _, created, create, ran⟩

/-- Every state of a session on a new volume is in order, unless its size wraps. -/
theorem orderly_of_reached (unwrapped : nblocks.toNat + 4095 < 2 ^ 32) {session : Session}
    (reached : Reaches next Allowed (Begins (steadyDisk nblocks image)) session) :
    Orderly session := by
  refine reached.invariant ?_ ?_
  · rintro session ⟨mounted, unheld⟩
    have fresh := fresh_of_mounted formatted mounted
    exact ⟨fresh.consistent formatted unwrapped, fresh.unreferenced.trans unheld.symm⟩
  · intro session operation after orderly allowed taken
    exact next_orderly orderly allowed taken

end volumes

/-- The accounts of a wrapped volume are wrong from the start: the superblock is
there, and the freemap has no bit for it. -/
theorem Fresh.unaccounted {nblocks : BitVec 32} {image : Nat → Block} {fs : Fs}
    (fresh : Fresh nblocks image fs) (wrapped : 2 ^ 32 ≤ nblocks.toNat + 4095) :
    ¬ Accounted fs := by
  intro accounted
  have bits := freemapbits_to_nat nblocks
  have used : InUse fs 0 := accounted.used_of_owns .super rfl
  have below := used.2.1
  rw [fresh.nbits] at below
  omega

/-- In every state of every session on a new volume the blocks are accounted for and
no operation panics, if and only if the size of the volume, rounded up to whole
blocks of the freemap, is a number of 32 bits. -/
theorem accounted_iff_unwrapped (nblocks : BitVec 32) (sectors image : Nat → Block)
    (volname : CString) (made : mksfs nblocks sectors volname = some image) :
    (∀ session, Reaches next Allowed (Begins (steadyDisk nblocks image)) session →
      Accounted session.fs ∧ NeverPanics session) ↔ nblocks.toNat + 4095 < 2 ^ 32 := by
  have formatted := formatted_of_mksfs made
  constructor
  · intro always
    by_contra wrapped
    obtain ⟨fs, mounted⟩ := exists_mounted formatted
    have fresh := fresh_of_mounted formatted mounted
    have start := always ⟨fs, fun _ => 0⟩ (.start _ ⟨mounted, rfl⟩)
    exact fresh.unaccounted (Nat.le_of_not_lt wrapped) start.1
  · intro unwrapped session reached
    have orderly := orderly_of_reached formatted unwrapped reached
    exact ⟨orderly.accounted, orderly.never_panics⟩

/-- A volume of 4096 blocks stays accounted for. -/
theorem accounted_on_small_volume :
    ∃ image, mksfs 4096 (fun _ => zeroBlock) ⟨[], by simp⟩ = some image ∧
      ∀ session, Reaches next Allowed (Begins (steadyDisk 4096 image)) session →
        Accounted session.fs ∧ NeverPanics session := by
  have written : ∃ image, mksfs 4096 (fun _ => zeroBlock) ⟨[], by simp⟩ = some image := ⟨_, rfl⟩
  obtain ⟨image, made⟩ := written
  exact ⟨image, made, (accounted_iff_unwrapped 4096 _ image _ made).mpr (by decide)⟩

/-- What a wrapped volume looks like once it is mounted, in clear memory. -/
def wrappedFs (image : Nat → Block) (volname : Fin 32 → Byte) : Fs where
  sb := terminate ⟨sfsMagic, 0xffffffff, volname⟩
  superdirty := false
  device := steadyDisk 0xffffffff image
  vnodes := []
  vnodesMax := 0
  heap := fun _ => none
  freemap := ⟨0, fun _ => 0⟩
  freemapdirty := false
  memory := fun _ => true

theorem wrapped_mounted {image : Nat → Block} {volname : Fin 32 → Byte}
    (super : image 0 = Superblock.encode ⟨sfsMagic, 0xffffffff, volname⟩) :
    Mounted (steadyDisk 0xffffffff image) (wrappedFs image volname) := by
  refine ⟨fun _ => true, fun _ => 0, _, rfl, ?_⟩
  have decoded : Superblock.decode ((steadyDisk 0xffffffff image).sectors (0 : Ino).toNat) =
      ⟨sfsMagic, 0xffffffff, volname⟩ := by
    rw [show (steadyDisk 0xffffffff image).sectors (0 : Ino).toNat = image 0 from rfl, super,
      Superblock.decode_encode]
  have answers : (⟨⟨0, 0, fun _ => 0⟩, false, steadyDisk 0xffffffff image, [], 0, fun _ => none,
    ⟨0, fun _ => 0⟩, false, fun _ => true⟩ : Fs).device.answers = fun _ => true := rfl
  have read := readblock_answered answers 0 (show 0 < (0xffffffff : BitVec 32).toNat by decide)
  have bits : (sfsFreemapbits (terminate ⟨sfsMagic, 0xffffffff, volname⟩).nblocks).toNat = 0 := by
    show (sfsFreemapbits 0xffffffff).toNat = 0
    decide
  have blocks : (sfsFreemapblocks (terminate ⟨sfsMagic, 0xffffffff, volname⟩).nblocks).toNat = 0 := by
    show (sfsFreemapblocks 0xffffffff).toNat = 0
    decide
  have created := bitmap_create_bytes (fun _ => 0) 0 rfl (by decide)
  simp only [sfsDomount, sfsLoadFreemap, sfsFreemapio, bind, andThen, read, decoded, change, inspect,
    kmalloc, ne_eq, not_true, if_false, and_self, if_true, bits, blocks, created, countUp, ret]
  rfl

/-- The volume of the largest size: its superblock is not marked, and getting its root
directory panics, as the inode is not in a block that is marked. -/
theorem unaccounted_on_largest_volume :
    ∃ image fs, mksfs 0xffffffff (fun _ => zeroBlock) ⟨[], by simp⟩ = some image ∧
      Mounted (steadyDisk 0xffffffff image) fs ∧ ¬ Accounted fs ∧
        perform .getroot fs = .stop .unallocatedLoad := by
  have written : ∃ image, mksfs 0xffffffff (fun _ => zeroBlock) ⟨[], by simp⟩ = some image :=
    ⟨_, rfl⟩
  obtain ⟨image, made⟩ := written
  have formatted := formatted_of_mksfs made
  obtain ⟨volname, super⟩ := formatted.super
  have mounted := wrapped_mounted super
  refine ⟨image, wrappedFs image volname, made, mounted, ?_, ?_⟩
  · exact (fresh_of_mounted formatted mounted).unaccounted (by decide)
  · have unmarked : bitmapIsset ⟨0, fun _ => 0#8⟩ 1 = false := by decide
    simp [perform, handOut, sfsGetroot, sfsLoadvnode, sfsFindvnode, sfsBused, bind, andThen, pure, ret,
      inspect, kmalloc, check, wrappedFs, terminate, unmarked]

end Os161.Sfs
