import Os161.Sfs.State
import Os161.Sfs.Trees

/-!
# Block allocation

`sfs_balloc` takes a clear bit of the freemap and clears the block before it hands
it out, `sfs_bfree` gives a block back, and `sfs_bused` reads a bit. A block that
was just allocated is used but not yet accounted for; the accounts are then still
those of the bits before.
-/
namespace Os161.Sfs

open Os161.Kern Os161.Library Os161.Library.Program

def sfsClearblock (rwblock : Driver) (block : Ino) : FsProgram PUnit :=
  writeblockBy rwblock block zeroBlock

def sfsBallocBy (rwblock : Driver) : FsProgram Ino := do
  let freemap ← inspect Fs.freemap
  match bitmapAlloc freemap with
  | .error panic => stopWith panic
  | .ok none => failWith .ENOSPC
  | .ok (some (index, marked)) => do
    change (fun fs => { fs with freemap := marked, freemapdirty := true })
    let nblocks ← inspect (fun fs => fs.sb.nblocks.toNat)
    check (index < nblocks) .ballocInvalidBlock
    match ← attempt (sfsClearblock rwblock (BitVec.ofNat 32 index)) with
    | .ok _ => pure (BitVec.ofNat 32 index)
    | .error error => do
      let after ← inspect Fs.freemap
      match bitmapUnmark after index with
      | .error panic => stopWith panic
      | .ok cleared => do
        change (fun fs => { fs with freemap := cleared })
        failWith error

abbrev sfsBalloc : FsProgram Ino := sfsBallocBy (sfsRwblock 10)

def sfsBfree (block : Ino) : FsProgram PUnit := do
  let freemap ← inspect Fs.freemap
  match bitmapUnmark freemap block.toNat with
  | .error panic => stopWith panic
  | .ok cleared => change (fun fs => { fs with freemap := cleared, freemapdirty := true })

def sfsBused (block : Ino) : FsProgram Bool := do
  let nblocks ← inspect (fun fs => fs.sb.nblocks.toNat)
  check (block.toNat < nblocks) .busedOutOfRange
  inspect (fun fs => bitmapIsset fs.freemap block.toNat)

/-- The file system after a block was allocated. -/
def Fs.allocated (fs : Fs) (block : Ino) : Fs :=
  Fs.put { fs with freemap := fs.freemap.set block.toNat, freemapdirty := true } block zeroBlock

/-- The file system after a block was freed. -/
def Fs.freed (fs : Fs) (block : Ino) : Fs :=
  { fs with freemap := fs.freemap.clear block.toNat, freemapdirty := true }

variable {fs : Fs} {block : Ino}

/-- An allocation marks its block and no other. -/
theorem in_use_allocated (ready : Ready fs) (other : Ino)
    (below : block.toNat < fs.sb.nblocks.toNat) :
    InUse (fs.allocated block) other ↔ InUse fs other ∨ other = block := by
  have nbits := ready.nbits
  simp only [InUse, Fs.allocated, Fs.put, isset_set, Bool.or_eq_true, decide_eq_true_eq,
    BitVec.toNat_inj]
  show _ ∧ _ < fs.freemap.nbits ∧ _ ↔ _
  constructor
  · rintro ⟨volume, bits, rfl | set⟩
    · exact Or.inr rfl
    · exact Or.inl ⟨volume, bits, set⟩
  · rintro (⟨volume, bits, set⟩ | rfl)
    · exact ⟨volume, bits, Or.inr set⟩
    · exact ⟨below, by omega, Or.inl rfl⟩

/-- Freeing unmarks its block and no other. -/
theorem in_use_freed (fs : Fs) (block other : Ino) :
    InUse (fs.freed block) other ↔ InUse fs other ∧ other ≠ block := by
  simp only [InUse, Fs.freed, isset_clear, Bool.and_eq_true, Bool.not_eq_true', decide_eq_false_iff_not,
    BitVec.toNat_inj]
  show _ ∧ _ < fs.freemap.nbits ∧ _ ↔ _
  constructor
  · rintro ⟨volume, bits, different, set⟩
    exact ⟨⟨volume, bits, set⟩, different⟩
  · rintro ⟨⟨volume, bits, set⟩, different⟩
    exact ⟨volume, bits, different, set⟩

theorem ready_allocated (ready : Ready fs) (block : Ino) : Ready (fs.allocated block) := by
  refine { ready with beyond := fun index volume bits => ?_ }
  have set := ready.beyond index volume bits
  simp [Fs.allocated, Fs.put, isset_set, set, Bool.or_true]

theorem ready_freed (ready : Ready fs) (below : block.toNat < fs.sb.nblocks.toNat) :
    Ready (fs.freed block) := by
  refine { ready with beyond := fun index volume bits => ?_ }
  have set := ready.beyond index volume bits
  have different : index ≠ block.toNat := by
    have past : fs.sb.nblocks.toNat ≤ index := volume
    omega
  simp [Fs.freed, isset_clear, set, different, Bool.not_false]

/-- Allocation finds no block, or returns one that was not in use. -/
theorem sfs_balloc_cases (ready : Ready fs) : sfsBalloc fs = .fail .ENOSPC fs ∨
      ∃ block, sfsBalloc fs = .done block (fs.allocated block) ∧ ¬ InUse fs block ∧
        block.toNat < fs.sb.nblocks.toNat := by
  have small := ready.small
  have nbits := ready.nbits
  rcases bitmap_alloc_cases fs.freemap (by omega) (by omega) with ⟨full, _⟩ | ⟨index, found, below, clear⟩
  · left
    simp only [sfsBallocBy, bind, andThen, inspect, full]
    rfl
  right
  have inside : index < fs.sb.nblocks.toNat := by
    by_contra outside
    rw [ready.beyond index (by omega) below] at clear
    cases clear
  have number : (BitVec.ofNat 32 index).toNat = index := by
    exact Nat.mod_eq_of_lt (by omega)
  refine ⟨BitVec.ofNat 32 index, ?_, ?_, by rw [number]; exact inside⟩
  · have marked : Ready { fs with freemap := fs.freemap.set index, freemapdirty := true } := by
      have ready' := ready_allocated ready (BitVec.ofNat 32 index)
      rw [Fs.allocated, number] at ready'
      exact ⟨ready'.answers, ready'.nsect, ready'.small, ready'.nbits, ready'.beyond⟩
    have written := writeblock_returns marked (BitVec.ofNat 32 index) zeroBlock
      (by rw [number]; exact inside)
    simp only [sfsBallocBy, sfsClearblock, bind, andThen, inspect, change, check, attempt, found,
      inside, if_true, written, Fs.allocated, number]
    rfl
  · rintro ⟨_, _, set⟩
    rw [number, clear] at set
    cases set

theorem table_freemap (table : Table fs) (freemap : Bitmap) (dirty : Bool) :
    Table { fs with freemap := freemap, freemapdirty := dirty } :=
  { table with }

theorem disk_allocated (core : Core (InUse fs) fs) (fresh : ¬ InUse fs block) :
    disk (fs.allocated block) = Function.update (disk fs) block zeroBlock :=
  disk_put zeroBlock (core.unloaded fresh)

/-- A block that was just allocated is in use and cleared, and nothing else has
changed. -/
theorem Core.allocated (core : Core (InUse fs) fs) (fresh : ¬ InUse fs block) :
    Core (InUse fs) (fs.allocated block) ∧ Kept fs (fs.allocated block) := by
  have same : ∀ ino, live fs ino →
      SameFile (disk fs) (Function.update (disk fs) block zeroBlock) ino :=
    fun ino alive => (outside_of_unused core.books fresh alive).same
  have changed := disk_allocated core fresh
  have kept : Kept fs (fs.allocated block) := by
    refine ⟨rfl, fun _ => rfl, ?_⟩
    rw [changed]
    exact alike_of_unused core.books (root_live fs) fresh zeroBlock
  have table : Table (fs.allocated block) :=
    table_put (table_freemap core.table (fs.freemap.set block.toNat) true) zeroBlock
      (core.unloaded fresh)
  refine ⟨core.toStanding.carry kept (ready_allocated core.ready block) table rfl ?_ ?_, kept⟩
  · rw [changed]
    exact core.books.congr (owns_congr fun other alive => (same other alive).pointer)
      (fun _ => Iff.rfl)
  · rintro other ⟨volume, bits, set⟩
    refine ⟨volume, bits, ?_⟩
    simp [Fs.allocated, Fs.put, isset_set, set, Bool.or_true]

theorem sfs_bfree_returns (used : InUse fs block) :
    sfsBfree block fs = .done () (fs.freed block) := by
  have unmarked := bitmap_unmark_isset fs.freemap used.2.1 used.2.2
  simp only [sfsBfree, bind, andThen, inspect, unmarked]
  rfl

theorem sfs_bused_returns {fs : Fs} {block : Ino} (used : InUse fs block) :
    sfsBused block fs = .done true fs := by
  have set := used.2.2
  simp [sfsBused, bind, andThen, inspect, check, used.1, set]

end Os161.Sfs
