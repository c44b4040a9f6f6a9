import Os161.Sfs.Balloc

/-!
# Block mapping

`sfs_bmap` finds the disk block of a block of a file, and allocates it when asked
to. Its body is cut here at its branches. When the block it wants is in the
indirect block and there is none, it allocates both, one after the other, and the
file keeps the indirect block if the second allocation fails.
-/
namespace Os161.Sfs

open Os161.Kern Os161.Library Os161.Library.Program Function
open Ensures (bind_done bind_failed bind_bind)

/-- The last step of `sfs_bmap`: a block it hands back must be marked in use. -/
def handBack (block : Ino) : FsProgram Ino :=
  if block = 0 then pure block
  else do
    let used ← sfsBused block
    check (used = true) .markedFree
    pure block

section mapping

variable (rwblock : Driver)

/-- `sfs_bmap` for one of the direct blocks. -/
def sfsBmapDirectBy (ino : Ino) (fileblock : Fin 15) (doalloc : Bool) : FsProgram Ino := do
  let sv ← vnode ino
  if sv.i.direct fileblock = 0 ∧ doalloc = true then do
    let block ← sfsBallocBy rwblock
    editVnode ino (fun sv => { sv with
      i := { sv.i with direct := update sv.i.direct fileblock block }
      dirty := true })
    handBack block
  else handBack (sv.i.direct fileblock)

/-- The indirect block, its buffer, the block in the entry asked for, and whether that block
was allocated just now. -/
structure IdLookup where
  idblock : Ino
  idbuf : Fin 128 → BitVec 32
  block : Ino
  allocated : Bool

/-- `sfs_bmap` once the indirect block is in the buffer, up to writing it back. -/
def sfsBmapLookupBy (idblock : Ino) (idbuf : Fin 128 → BitVec 32) (idoff : Fin 128)
    (doalloc : Bool) : FsProgram IdLookup :=
  if idbuf idoff = 0 ∧ doalloc = true then do
    let block ← sfsBallocBy rwblock
    pure ⟨idblock, update idbuf idoff block, block, true⟩
  else pure ⟨idblock, idbuf, idbuf idoff, false⟩

/-- `sfs_bmap` for a block in the indirect block, up to writing it back. Nothing stands for
the return when there is no indirect block and none is to be allocated. -/
def sfsBmapBufferBy (ino : Ino) (idoff : Fin 128) (doalloc : Bool) :
    FsProgram (Option IdLookup) := do
  let sv ← vnode ino
  if sv.i.indirect = 0 then
    if doalloc = true then do
      let idblock ← sfsBallocBy rwblock
      editVnode ino (fun sv => { sv with i := { sv.i with indirect := idblock }, dirty := true })
      let found ← sfsBmapLookupBy rwblock idblock (fun _ => 0) idoff doalloc
      pure (some found)
    else pure none
  else do
    let data ← readblockBy rwblock sv.i.indirect
    let found ← sfsBmapLookupBy rwblock sv.i.indirect (words data) idoff doalloc
    pure (some found)

/-- The rest of `sfs_bmap`. -/
def sfsBmapFinishBy : Option IdLookup → FsProgram Ino
  | none => pure 0
  | some found => do
    onlyIf (found.allocated = true) (writeblockBy rwblock found.idblock (ofWords found.idbuf))
    handBack found.block

theorem entry_lt (fileblock : BitVec 32) : (fileblock.toNat - 15) % 128 < 128 :=
  Nat.mod_lt _ (by decide)

/-- `sfs_bmap`. There is one indirect block. -/
def sfsBmapBy (ino : Ino) (fileblock : BitVec 32) (doalloc : Bool) : FsProgram Ino :=
  if direct : fileblock.toNat < 15 then
    sfsBmapDirectBy rwblock ino ⟨fileblock.toNat, direct⟩ doalloc
  else if 1 ≤ (fileblock.toNat - 15) / 128 then failWith .EFBIG
  else do
    let found ← sfsBmapBufferBy rwblock ino
      ⟨(fileblock.toNat - 15) % 128, entry_lt fileblock⟩ doalloc
    sfsBmapFinishBy rwblock found

end mapping

abbrev sfsBmap : Ino → BitVec 32 → Bool → FsProgram Ino := sfsBmapBy (sfsRwblock 10)

/-- The invariant of a file system all of whose used blocks are accounted for. -/
abbrev Sound (fs : Fs) : Prop := Core (InUse fs) fs

/-- What mapping returns: the block in the place asked for, which is there if it was
to be allocated; and looking it up changes nothing. -/
structure Mapped (before : Fs) (ino : Ino) (pointed : Pointer) (doalloc : Bool) (block : Ino)
    (after : Fs) : Prop where
  sound : Sound after
  kept : Kept before after
  held : pointer (disk after) ino pointed = block
  allocated : doalloc = true → block ≠ 0
  untouched : doalloc = false → after = before

/-- What is left when mapping fails: it was asked to allocate a block that was not
there. -/
structure Unmapped (before : Fs) (ino : Ino) (pointed : Pointer) (doalloc : Bool) (after : Fs) :
    Prop where
  sound : Sound after
  kept : Kept before after
  asked : doalloc = true
  absent : pointer (disk before) ino pointed = 0

theorem hand_back_returns {fs : Fs} {block : Ino} (used : block ≠ 0 → InUse fs block) :
    handBack block fs = .done block fs := by
  unfold handBack
  by_cases zero : block = 0
  · rw [if_pos zero]
    rfl
  · rw [if_neg zero]
    simp only [bind, andThen, sfs_bused_returns (used zero), check, if_true]
    rfl

variable {fs : Fs} {sv : Vnode} {ino : Ino}

/-- Changing a loaded inode for the sake of its pointers, when the accounts are kept,
keeps the invariant. -/
theorem sound_of_pointers (standing : Standing fs) (found : fs.heap ino = some sv) (after : Vnode)
    (ops : after.ops = sv.ops) (refs : after.refcount = sv.refcount) (dirty : after.dirty = true)
    (type : after.i.type = sv.i.type) (books : Accounting (Owns (fs.freemap.nbits / 4096)
      (update (disk fs) ino after.i.encode) (live fs)) (InUse fs))
    (alike : Alike (live fs) (disk fs) (update (disk fs) ino after.i.encode)) :
    Sound (fs.edited ino after) ∧ Kept fs (fs.edited ino after) := by
  have kept := kept_edited found refs alike
  have positive : 0 < after.refcount := by
    rw [refs]
    exact standing.table.referenced ino sv found
  refine ⟨standing.carry kept (standing.ready.edited ino after)
    (table_edited standing.table ino sv after found ops type positive
      (fun undirtied => absurd (dirty.symm.trans undirtied) (by decide))) rfl ?_
    (fun _ used => used), kept⟩
  rw [disk_edited]
  exact books

/-- A block that `sfs_balloc` has handed out, before a loaded inode points to it. -/
theorem Sound.handed_out (sound : Sound fs) (found : fs.heap ino = some sv) {block : Ino}
    (fresh : ¬ InUse fs block) (below : block.toNat < fs.sb.nblocks.toNat) :
    Core (InUse fs) (fs.allocated block) ∧ Kept fs (fs.allocated block) ∧ block ≠ 0 ∧
      node (disk (fs.allocated block)) ino = sv.i ∧ live (fs.allocated block) ino ∧
      disk (fs.allocated block) block = zeroBlock ∧
      ∀ other, InUse (fs.allocated block) other ↔ InUse fs other ∨ other = block := by
  obtain ⟨core, kept⟩ := sound.allocated fresh
  have found' : (fs.allocated block).heap ino = some sv := found
  refine ⟨core, kept, fun zero => fresh (zero ▸ sound.used_zero), node_disk found',
    live_of_loaded found', ?_, fun other => in_use_allocated sound.ready other below⟩
  rw [disk_allocated sound fresh, update_self]

/-- A direct pointer is returned, or a block is allocated for it. -/
theorem sfs_bmap_direct_ensures (sound : Sound fs) (found : fs.heap ino = some sv)
    (fileblock : Fin 15) (doalloc : Bool) :
    Ensures False (sfsBmapDirectBy (sfsRwblock 10) ino fileblock doalloc) fs
      (Mapped fs ino (.direct fileblock) doalloc)
      (fun _ after => Unmapped fs ino (.direct fileblock) doalloc after) := by
  have alive := live_of_loaded found
  have same := node_disk found
  refine bind_done (vnode_returns found) ?_
  by_cases absent : sv.i.direct fileblock = 0 ∧ doalloc = true
  · rw [if_pos absent]
    rcases sfs_balloc_cases sound.ready with full | ⟨block, got, fresh, below⟩
    · refine bind_failed full ⟨sound, Kept.refl fs, absent.2, ?_⟩
      simp [pointer, same, absent.1]
    obtain ⟨core, kept, nonzero, same', alive', cleared, marked⟩ := sound.handed_out found fresh below
    obtain ⟨books, alike⟩ := attach_inode core.books alive' (.direct fileblock)
      { sv.i with direct := update sv.i.direct fileblock block }
      ⟨by rw [same'], by rw [same'], by rw [same']⟩ (by simp only [pointer, same', absent.1])
      (pointer_of_direct core.books alive' (by rw [same']) (by rw [same'])) nonzero fresh cleared
      (root_live _) marked
    obtain ⟨after, kept'⟩ := sound_of_pointers core.toStanding found { sv with
        i := { sv.i with direct := update sv.i.direct fileblock block }
        dirty := true } rfl rfl rfl rfl books alike
    refine bind_done got (bind_done (edit_vnode_returns ino _ sv found) ?_)
    refine ensures_of_done (hand_back_returns fun _ => (marked block).mpr (Or.inr rfl)) ?_
    refine ⟨after, kept.trans kept', ?_, fun _ => nonzero, fun lookup => ?_⟩
    · simp [pointer, disk_edited, node_update_self, Dinode.decode_encode]
    · rw [absent.2] at lookup
      cases lookup
  · rw [if_neg absent]
    have held : pointer (disk fs) ino (.direct fileblock) = sv.i.direct fileblock := by
      simp [pointer, same]
    refine ensures_of_done (hand_back_returns fun present => ?_) ?_
    · exact held ▸ sound.used_pointer (.direct fileblock) alive (by rw [held]; exact present)
    · exact ⟨sound, Kept.refl fs, held, fun asked zero => absent ⟨zero, asked⟩, fun _ => rfl⟩

/-- Writing a block that is no loaded inode, when the accounts are kept, keeps the
invariant. -/
theorem sound_of_put (standing : Standing fs) {block : Ino} (data : Block)
    (unloaded : fs.heap block = none) (books : Accounting (Owns (fs.freemap.nbits / 4096)
      (update (disk fs) block data) (live fs)) (InUse fs))
    (alike : Alike (live fs) (disk fs) (update (disk fs) block data)) :
    Sound (fs.put block data) ∧ Kept fs (fs.put block data) := by
  have changed := disk_put data unloaded
  have kept : Kept fs (fs.put block data) := ⟨rfl, fun _ => rfl, by rw [changed]; exact alike⟩
  refine ⟨standing.carry kept (standing.ready.put block data)
    (table_put standing.table data unloaded) rfl ?_ (fun _ used => used), kept⟩
  rw [changed]
  exact books

/-- An entry of a loaded indirect block is returned, or a block is allocated for it. -/
theorem sfs_bmap_entry_ensures (fs : Fs) (sound : Sound fs) (ino : Ino) (sv : Vnode)
    (found : fs.heap ino = some sv) (present : sv.i.indirect ≠ 0) (idbuf : Fin 128 → BitVec 32)
    (loaded : idbuf = words (disk fs sv.i.indirect)) (idoff : Fin 128) (doalloc : Bool) :
    Ensures False ((sfsBmapLookupBy (sfsRwblock 10) sv.i.indirect idbuf idoff doalloc >>=
        fun found => pure (some found)) >>= sfsBmapFinishBy (sfsRwblock 10)) fs
      (Mapped fs ino (.entry idoff) doalloc)
      (fun _ after => Unmapped fs ino (.entry idoff) doalloc after) := by
  have alive := live_of_loaded found
  have same := node_disk found
  have held : pointer (disk fs) ino (.entry idoff) = idbuf idoff := by
    simp only [pointer, same, present, if_false, loaded]
  have indirect : pointer (disk fs) ino .indirect = sv.i.indirect := by
    simp only [pointer, same]
  apply bind_bind
  unfold sfsBmapLookupBy
  by_cases absent : idbuf idoff = 0 ∧ doalloc = true
  · rw [if_pos absent]
    rcases sfs_balloc_cases sound.ready with full | ⟨block, got, fresh, below⟩
    · exact bind_bind (bind_failed full ⟨sound, Kept.refl fs, absent.2, held.trans absent.1⟩)
    obtain ⟨core, kept, nonzero, same', alive', cleared, marked⟩ := sound.handed_out found fresh below
    have owned : InUse fs sv.i.indirect :=
      indirect ▸ sound.used_pointer .indirect alive (by rw [indirect]; exact present)
    have apart : sv.i.indirect ≠ block := fun equal => fresh (equal ▸ owned)
    have buffer : words (disk (fs.allocated block) sv.i.indirect) = idbuf := by
      rw [disk_allocated sound fresh, update_of_ne apart, loaded]
    have present' : (node (disk (fs.allocated block)) ino).indirect ≠ 0 := by
      rw [same']
      exact present
    obtain ⟨books, alike⟩ := attach_entry core.books alive' present' idoff
      (by rw [same', buffer]; exact absent.1) nonzero fresh cleared (root_live _) marked
    have entered := pointer_of_entry core.books alive' present' idoff block (.entry idoff)
    have unloaded := core.unloaded_pointer .indirect alive' present'
    simp only [pointer] at unloaded
    rw [same', buffer] at books alike entered
    rw [same'] at unloaded
    obtain ⟨after, kept'⟩ := sound_of_put core.toStanding _ unloaded books alike
    refine bind_bind (bind_done got (bind_done rfl (bind_done rfl ?_)))
    refine bind_done (writeblock_returns core.ready _ _ owned.1) ?_
    refine ensures_of_done (hand_back_returns fun _ => (marked block).mpr (Or.inr rfl)) ?_
    refine ⟨after, kept.trans kept', ?_, fun _ => nonzero, fun lookup => ?_⟩
    · rw [disk_put _ unloaded, entered, if_pos rfl]
    · rw [absent.2] at lookup
      cases lookup
  · rw [if_neg absent]
    refine bind_done rfl (bind_done rfl (bind_done rfl ?_))
    refine ensures_of_done (hand_back_returns fun there => ?_) ?_
    · exact held ▸ sound.used_pointer (.entry idoff) alive (by rw [held]; exact there)
    · exact ⟨sound, Kept.refl fs, held, fun asked zero => absent ⟨zero, asked⟩, fun _ => rfl⟩

section

variable {fs : Fs} (sound : Sound fs) {ino : Ino} {sv : Vnode} (found : fs.heap ino = some sv)

include sound found

/-- The same for a block behind the indirect block, which may have to be allocated first. -/
theorem sfs_bmap_indirect_ensures (idoff : Fin 128) (doalloc : Bool) :
    Ensures False (sfsBmapBufferBy (sfsRwblock 10) ino idoff doalloc >>=
        sfsBmapFinishBy (sfsRwblock 10)) fs (Mapped fs ino (.entry idoff) doalloc)
      (fun _ after => Unmapped fs ino (.entry idoff) doalloc after) := by
  have alive := live_of_loaded found
  have same := node_disk found
  refine bind_bind (bind_done (vnode_returns found) ?_)
  by_cases absent : sv.i.indirect = 0
  · have missing : pointer (disk fs) ino (.entry idoff) = 0 := by
      simp [pointer, same, absent]
    rw [if_pos absent]
    by_cases asked : doalloc = true
    · rw [if_pos asked]
      rcases sfs_balloc_cases sound.ready with full | ⟨block, got, fresh, below⟩
      · exact bind_bind (bind_failed full ⟨sound, Kept.refl fs, asked, missing⟩)
      obtain ⟨core, kept, nonzero, same', alive', cleared, marked⟩ := sound.handed_out found fresh below
      have apart : block ≠ ino := core.books.ne_of_unused (.inode ino) fresh ⟨alive', rfl⟩
      obtain ⟨books, alike⟩ := attach_inode core.books alive' .indirect
        { sv.i with indirect := block } ⟨by rw [same'], by rw [same'], by rw [same']⟩
        (by simp only [pointer, same', absent])
        (pointer_of_indirect (by rw [same']) rfl (fun _ => by simp only [pointer, same', absent, if_true])
          (fun _ => by rw [update_of_ne apart, cleared])) nonzero fresh cleared (root_live _) marked
      obtain ⟨after, kept'⟩ := sound_of_pointers core.toStanding found
        { sv with i := { sv.i with indirect := block }, dirty := true }
        rfl rfl rfl rfl books alike
      refine bind_bind (bind_done got (bind_bind (bind_done (edit_vnode_returns ino _ sv found) ?_)))
      have entry := sfs_bmap_entry_ensures ((fs.allocated block).edited ino
          { sv with i := { sv.i with indirect := block }, dirty := true }) after ino
        { sv with i := { sv.i with indirect := block }, dirty := true }
        (by simp [Fs.edited]) nonzero (fun _ => 0)
        (by
          rw [disk_edited, update_of_ne apart, cleared]
          funext index
          exact (words_zero index).symm) idoff doalloc
      refine entry.weaken (fun _ _ mapped => ?_) (fun _ _ failed => ?_)
      · exact ⟨mapped.sound, (kept.trans kept').trans mapped.kept, mapped.held, mapped.allocated,
          fun lookup => by rw [asked] at lookup; cases lookup⟩
      · exact ⟨failed.sound, (kept.trans kept').trans failed.kept, asked, missing⟩
    · rw [if_neg asked]
      refine bind_done rfl ?_
      exact ensures_pure ⟨sound, Kept.refl fs, missing, fun yes => absurd yes asked, fun _ => rfl⟩
  · rw [if_neg absent]
    have indirect : pointer (disk fs) ino .indirect = sv.i.indirect := by
      simp [pointer, same]
    have owned : InUse fs sv.i.indirect :=
      indirect ▸ sound.used_pointer .indirect alive (by rw [indirect]; exact absent)
    have unloaded : fs.heap sv.i.indirect = none :=
      indirect ▸ sound.unloaded_pointer .indirect alive (by rw [indirect]; exact absent)
    refine bind_bind (bind_done (readblock_returns sound.ready owned.1) ?_)
    exact sfs_bmap_entry_ensures fs sound ino sv found absent _ (by simp only [disk, unloaded])
      idoff doalloc

/-- `sfs_bmap` returns the block in the place of the file block, and fails only when
it is asked to allocate a block that is not there or there is no such place. -/
theorem sfs_bmap_ensures (fileblock : BitVec 32) (doalloc : Bool) :
    Ensures False (sfsBmap ino fileblock doalloc) fs
      (fun block after => ∃ pointed, place fileblock.toNat = some pointed ∧
        Mapped fs ino pointed doalloc block after)
      (fun _ after => Sound after ∧ Kept fs after ∧ (place fileblock.toNat = none ∨
        ∃ pointed, place fileblock.toNat = some pointed ∧ Unmapped fs ino pointed doalloc after)) := by
  unfold sfsBmap sfsBmapBy place
  by_cases direct : fileblock.toNat < 15
  · simp only [direct, dif_pos]
    refine (sfs_bmap_direct_ensures sound found _ doalloc).weaken
      (fun _ _ mapped => ⟨_, rfl, mapped⟩)
      (fun _ _ failed => ⟨failed.sound, failed.kept, Or.inr ⟨_, rfl, failed⟩⟩)
  · simp only [direct, dif_neg, not_false_iff]
    by_cases large : 1 ≤ (fileblock.toNat - 15) / 128
    · have past : ¬ fileblock.toNat < 143 := by omega
      simp only [large, if_true, past, dif_neg, not_false_iff]
      exact ensures_fail ⟨sound, Kept.refl fs, Or.inl trivial⟩
    have inside : fileblock.toNat < 143 := by omega
    have offset : (fileblock.toNat - 15) % 128 = fileblock.toNat - 15 := by omega
    simp only [large, if_false, inside, dif_pos, offset]
    refine (sfs_bmap_indirect_ensures sound found _ doalloc).weaken
      (fun _ _ mapped => ⟨_, rfl, mapped⟩)
      (fun _ _ failed => ⟨failed.sound, failed.kept, Or.inr ⟨_, rfl, failed⟩⟩)

/-- Without allocation `sfs_bmap` reads the pointer and changes nothing. -/
theorem sfs_bmap_lookup {fileblock : BitVec 32} {pointed : Pointer}
    (placed : place fileblock.toNat = some pointed) :
    sfsBmap ino fileblock false fs = .done (pointer (disk fs) ino pointed) fs := by
  have lookup : Succeeds (sfsBmap ino fileblock false) fs
      (fun block after => block = pointer (disk fs) ino pointed ∧ after = fs) := by
    refine (sfs_bmap_ensures sound found fileblock false).weaken ?_ ?_
    · rintro block after ⟨other, also, mapped⟩
      rw [placed] at also
      cases also
      have untouched := mapped.untouched rfl
      subst untouched
      exact ⟨mapped.held.symm, rfl⟩
    · rintro _ after ⟨_, _, missing | ⟨other, also, unmapped⟩⟩
      · rw [placed] at missing
        cases missing
      · cases unmapped.asked
  obtain ⟨block, after, ran, rfl, rfl⟩ := lookup.returned
  exact ran

end

end Os161.Sfs
