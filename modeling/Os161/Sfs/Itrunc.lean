import Os161.Sfs.Bmap

/-!
# Truncation

`sfs_itrunc` frees the blocks of a file past its new end and sets its size. Its
body is cut here at its loops.

The entries of an indirect block are freed one after another while the block with
their numbers is only in a buffer. During that loop the accounts are in order for
the volume on which the buffer had been written back.
-/
namespace Os161.Sfs

open Os161.Kern Os161.Library Os161.Library.Program Function

/-- A round of the loop over the direct blocks. -/
def sfsItruncDirect (ino : Ino) (blocklen : Nat) (i : Nat) (_ : PUnit) : FsProgram PUnit := do
  let sv ← vnode ino
  if blocklen ≤ i ∧ sv.i.direct (Fin.ofNat 15 i) ≠ 0 then do
    sfsBfree (sv.i.direct (Fin.ofNat 15 i))
    editVnode ino (fun sv => { sv with
      i := { sv.i with direct := update sv.i.direct (Fin.ofNat 15 i) 0 }
      dirty := true })
  else pure ()

/-- The buffer and the two flags of the loop over the indirect block. -/
structure IdScan where
  idbuf : Fin 128 → BitVec 32
  hasnonzero : Bool
  iddirty : Bool

/-- The entry of the indirect block that a round of the loop is about. -/
def idEntry (j : Nat) : Fin 128 := ⟨j % 128, Nat.mod_lt j (by decide)⟩

/-- A round of the loop over the indirect block. -/
def sfsItruncEntry (blocklen : Nat) (j : Nat) (scan : IdScan) : FsProgram IdScan :=
  if blocklen < 15 + j ∧ scan.idbuf (idEntry j) ≠ 0 then do
    sfsBfree (scan.idbuf (idEntry j))
    pure { scan with idbuf := update scan.idbuf (idEntry j) 0, iddirty := true }
  else
    pure { scan with
      hasnonzero := scan.hasnonzero || decide (scan.idbuf (idEntry j) ≠ 0) }

/-- The loop over the indirect block. -/
def sfsItruncEntries (blocklen : Nat) (idblock : Block) : FsProgram IdScan :=
  countUp (sfsItruncEntry blocklen) 128 ⟨words idblock, false, false⟩

/-- What is done with the indirect block after the loop. -/
def sfsItruncFinish (ino idblock : Ino) (scan : IdScan) : FsProgram PUnit :=
  if scan.hasnonzero = false then do
    sfsBfree idblock
    editVnode ino (fun sv => { sv with i := { sv.i with indirect := 0 }, dirty := true })
  else if scan.iddirty = true then writeblock idblock (ofWords scan.idbuf)
  else pure ()

/-- The part of `sfs_itrunc` about the indirect block. The highest file block in it
is 142. -/
def sfsItruncIndirect (ino : Ino) (blocklen : Nat) : FsProgram PUnit := do
  let sv ← vnode ino
  if blocklen < 142 ∧ sv.i.indirect ≠ 0 then do
    let data ← readblock sv.i.indirect
    let scan ← sfsItruncEntries blocklen data
    sfsItruncFinish ino sv.i.indirect scan
  else pure ()

/-- `sfs_itrunc`. The length in blocks is an unsigned of 32 bits. -/
def sfsItrunc (ino : Ino) (len : Int) : FsProgram PUnit := do
  countUp (sfsItruncDirect ino (BitVec.ofInt 32 ((len + 511).tdiv 512)).toNat) 15 ()
  sfsItruncIndirect ino (BitVec.ofInt 32 ((len + 511).tdiv 512)).toNat
  editVnode ino (fun sv => { sv with i := { sv.i with size := BitVec.ofInt 32 len }, dirty := true })

theorem disk_freed (fs : Fs) (block : Ino) : disk (fs.freed block) = disk fs := rfl

variable {fs : Fs} {ino : Ino} {sv : Vnode} {blocklen : Nat}

theorem standing_freed (standing : Standing fs) {block : Ino}
    (below : block.toNat < fs.sb.nblocks.toNat) : Standing (fs.freed block) :=
  ⟨ready_freed standing.ready below, table_freemap standing.table _ _, standing.tidy⟩

theorem kept_freed (fs : Fs) (block : Ino) : Kept fs (fs.freed block) :=
  ⟨rfl, fun _ => rfl, Alike.refl⟩

/-- The direct pointers from a block length on are cleared below an index. -/
def DirectCleared (fs : Fs) (ino : Ino) (blocklen bound : Nat) : Prop :=
  ∀ index : Fin 15, index < bound → blocklen ≤ index → (node (disk fs) ino).direct index = 0

/-- What is below the next index is below this one or at it. -/
theorem below_succ {bound i : Nat} {here : Fin bound} (number : (here : Nat) = i)
    (index : Fin bound) (below : index < i + 1) : index < i ∨ index = here := by
  by_cases before : (index : Nat) < i
  · exact Or.inl before
  · exact Or.inr (Fin.ext (by omega))

/-- One round over the direct blocks frees one block past the new end. -/
theorem sfs_itrunc_direct_ensures (sound : Sound fs) (regular : ino ≠ rootdirIno)
    (found : fs.heap ino = some sv) {i : Nat} (inside : i < 15)
    (earlier : DirectCleared fs ino blocklen i) :
    Succeeds (sfsItruncDirect ino blocklen i ()) fs
      (fun _ after => Sound after ∧ Kept fs after ∧ DirectCleared after ino blocklen (i + 1)) := by
  have alive := live_of_loaded found
  have same := node_disk found
  have number : ((Fin.ofNat 15 i : Fin 15) : Nat) = i := Nat.mod_eq_of_lt inside
  unfold sfsItruncDirect
  generalize Fin.ofNat 15 i = here at number
  have split := below_succ number
  refine Ensures.bind_done (vnode_returns found) ?_
  by_cases freeing : blocklen ≤ i ∧ sv.i.direct here ≠ 0
  · rw [if_pos freeing]
    have held : pointer (disk fs) ino (.direct here) = sv.i.direct here := by
      simp [pointer, same]
    have used : InUse fs (sv.i.direct here) :=
      held ▸ sound.used_pointer (.direct here) alive (by rw [held]; exact freeing.2)
    have unmarked : ∀ other, InUse (fs.freed (sv.i.direct here)) other ↔
        InUse fs other ∧ other ≠ (node (disk fs) ino).direct here := by
      rw [same]
      exact in_use_freed fs (sv.i.direct here)
    obtain ⟨books, alike⟩ := detach_inode sound.books alive (.direct here)
      { sv.i with direct := update sv.i.direct here 0 }
      ⟨by rw [same], by rw [same], by rw [same]⟩ (by simp only [pointer, same]; exact freeing.2)
      (pointer_of_direct sound.books alive (by rw [same]) (by rw [same])) regular (root_live fs)
      unmarked
    obtain ⟨after, kept⟩ := sound_of_pointers (standing_freed sound.toStanding used.1) found
      { sv with i := { sv.i with direct := update sv.i.direct here 0 }, dirty := true }
      rfl rfl rfl rfl books alike
    refine Ensures.bind_done (sfs_bfree_returns used)
      (ensures_of_done (edit_vnode_returns ino _ sv found) ?_)
    refine ⟨after, (kept_freed fs _).trans kept, fun index below past => ?_⟩
    rw [disk_edited, node_update_self, Dinode.decode_encode]
    rcases split index below with before | rfl
    · have apart : index ≠ here := fun equal => by
        omega
      have zero := earlier index before past
      rw [same] at zero
      simpa [update_of_ne apart] using zero
    · simp
  · rw [if_neg freeing]
    refine ensures_pure ⟨sound, Kept.refl fs, fun index below past => ?_⟩
    rcases split index below with before | rfl
    · exact earlier index before past
    · rw [same]
      by_contra present
      exact freeing ⟨by omega, present⟩

/-- The loop over the direct blocks clears the pointers past the new end. -/
theorem sfs_itrunc_directs_ensures (sound : Sound fs) (regular : ino ≠ rootdirIno)
    (found : fs.heap ino = some sv) (blocklen : Nat) :
    Succeeds (countUp (sfsItruncDirect ino blocklen) 15 ()) fs
      (fun _ after => Sound after ∧ Kept fs after ∧ DirectCleared after ino blocklen 15) := by
  refine ensures_count_up (sfsItruncDirect ino blocklen) (fun bound _ after =>
    Sound after ∧ Kept fs after ∧ DirectCleared after ino blocklen bound) () ?_ ?_
  · exact ⟨sound, Kept.refl fs, fun index below => absurd below (Nat.not_lt_zero _)⟩
  · rintro i _ middle inside ⟨sound', kept, earlier⟩
    obtain ⟨sv', found'⟩ := kept.refs.found found
    refine (sfs_itrunc_direct_ensures sound' regular found' inside earlier).on_return
      (fun _ _ after => ⟨after.1, kept.trans after.2.1, after.2.2⟩)

/-- The volume with the buffer of the loop written back to the indirect block. -/
def scanned (fs : Fs) (ino : Ino) (scan : IdScan) : Disk :=
  update (disk fs) (node (disk fs) ino).indirect (ofWords scan.idbuf)

/-- The loop over the indirect block at an index. It has only changed the freemap;
the accounts are in order for the volume with the buffer written back, and the flags
say whether an entry is left and whether the buffer has changed. -/
structure Scanning (fs : Fs) (ino : Ino) (blocklen bound : Nat) (scan : IdScan) (after : Fs) :
    Prop where
  only : ∃ freemap dirty, after = { fs with freemap := freemap, freemapdirty := dirty }
  ready : Ready after
  nbits : after.freemap.nbits = fs.freemap.nbits
  books : Accounting (Owns (fs.freemap.nbits / 4096) (scanned fs ino scan) (live fs)) (InUse after)
  alike : Alike (live fs) (disk fs) (scanned fs ino scan)
  cleared : ∀ index : Fin 128, index < bound → blocklen < 15 + index → scan.idbuf index = 0
  empty : scan.hasnonzero = false → ∀ index : Fin 128, index < bound → scan.idbuf index = 0
  left : scan.hasnonzero = true → ∃ index : Fin 128, index < bound ∧ scan.idbuf index ≠ 0
  unchanged : scan.iddirty = false → scan.idbuf = words (disk fs (node (disk fs) ino).indirect)

/-- The loop leaves everything but the freemap alone. -/
theorem Scanning.frame {middle : Fs} {bound : Nat} {scan : IdScan}
    (scanning : Scanning fs ino blocklen bound scan middle) (sound : Sound fs) :
    Standing middle ∧ Kept fs middle ∧ middle.heap = fs.heap ∧ disk middle = disk fs := by
  have ready := scanning.ready
  obtain ⟨freemap, dirty, rfl⟩ := scanning.only
  exact ⟨⟨ready, table_freemap sound.table _ _, sound.tidy⟩,
    ⟨rfl, fun _ => rfl, Alike.refl⟩, rfl, rfl⟩

theorem scanning_start (sound : Sound fs) (ino : Ino) (blocklen : Nat) :
    Scanning fs ino blocklen 0 ⟨words (disk fs (node (disk fs) ino).indirect), false, false⟩ fs := by
  have same : scanned fs ino ⟨words (disk fs (node (disk fs) ino).indirect), false, false⟩ =
      disk fs := by
    unfold scanned
    rw [of_words_words, update_eq_self]
  refine ⟨⟨fs.freemap, fs.freemapdirty, rfl⟩, sound.ready, rfl, ?_, ?_, ?_, ?_, ?_, fun _ => rfl⟩
  · rw [same]
    exact sound.books
  · rw [same]
    exact Alike.refl
  · exact fun index below => absurd below (Nat.not_lt_zero _)
  · exact fun _ index below => absurd below (Nat.not_lt_zero _)
  · exact nofun

section scanning

variable {fs : Fs} (sound : Sound fs) {ino : Ino} (regular : ino ≠ rootdirIno) {sv : Vnode}
  (found : fs.heap ino = some sv) (present : (node (disk fs) ino).indirect ≠ 0)

include sound found present

theorem node_scanned (scan : IdScan) : node (scanned fs ino scan) ino = node (disk fs) ino :=
  node_of_indirect sound.books (live_of_loaded found) present _

include regular

/-- One round over the indirect block frees one entry past the new end. -/
theorem sfs_itrunc_entry_ensures {j : Nat} (inside : j < 128) {scan : IdScan} {middle : Fs}
    (scanning : Scanning fs ino blocklen j scan middle) :
    Succeeds (sfsItruncEntry blocklen j scan) middle (Scanning fs ino blocklen (j + 1)) := by
  have alive := live_of_loaded found
  have self := node_scanned sound found present scan
  have buffer : words (scanned fs ino scan (node (scanned fs ino scan) ino).indirect) =
      scan.idbuf := by
    rw [self]
    unfold scanned
    rw [update_self, words_of_words]
  have number : (idEntry j : Nat) = j := Nat.mod_eq_of_lt inside
  unfold sfsItruncEntry
  generalize idEntry j = here at number
  have split := below_succ number
  by_cases freeing : blocklen < 15 + j ∧ scan.idbuf here ≠ 0
  · rw [if_pos freeing]
    have entered : words (scanned fs ino scan (node (scanned fs ino scan) ino).indirect) here ≠ 0 := by
      rw [buffer]
      exact freeing.2
    have there : (node (scanned fs ino scan) ino).indirect ≠ 0 := by
      rw [self]
      exact present
    have used : InUse middle (scan.idbuf here) := by
      refine scanning.books.used_of_owns (.block ino (.entry here)) ⟨alive, freeing.2, ?_⟩
      simp only [pointer, there, if_false, buffer]
    have unmarked : ∀ other, InUse (middle.freed (scan.idbuf here)) other ↔ InUse middle other ∧
        other ≠ words (scanned fs ino scan (node (scanned fs ino scan) ino).indirect) here := by
      rw [buffer]
      exact in_use_freed middle (scan.idbuf here)
    obtain ⟨books, alike⟩ := detach_entry scanning.books alive there entered regular
      (root_live fs) unmarked
    have changed : update (scanned fs ino scan) (node (scanned fs ino scan) ino).indirect
          (ofWords (update
            (words (scanned fs ino scan (node (scanned fs ino scan) ino).indirect)) here 0)) =
        scanned fs ino { scan with idbuf := update scan.idbuf here 0, iddirty := true } := by
      rw [buffer, self]
      unfold scanned
      rw [update_idem]
    rw [changed] at books alike
    refine Ensures.bind_done (sfs_bfree_returns used) (ensures_pure ?_)
    obtain ⟨freemap, dirty, rfl⟩ := scanning.only
    refine ⟨⟨_, _, rfl⟩, ready_freed scanning.ready used.1, scanning.nbits, books,
      scanning.alike.trans alike, fun index below past => ?_, fun none index below => ?_,
      fun left => ?_, nofun⟩
    · rcases split index below with before | rfl
      · by_cases equal : index = here
        · simp [equal]
        · simpa [update_of_ne equal] using scanning.cleared index before past
      · simp
    · rcases split index below with before | rfl
      · by_cases equal : index = here
        · simp [equal]
        · simpa [update_of_ne equal] using scanning.empty none index before
      · simp
    · obtain ⟨index, below, nonzero⟩ := scanning.left left
      have apart : index ≠ here := fun equal => by
        rw [equal] at below
        omega
      exact ⟨index, by omega, by simpa [update_of_ne apart] using nonzero⟩
  · rw [if_neg freeing]
    refine ensures_pure ⟨scanning.only, scanning.ready, scanning.nbits, scanning.books,
      scanning.alike, fun index below past => ?_, fun none index below => ?_, fun left => ?_,
      scanning.unchanged⟩
    · rcases split index below with before | rfl
      · exact scanning.cleared index before past
      · by_contra left
        exact freeing ⟨by omega, left⟩
    · simp only [Bool.or_eq_false_iff, decide_eq_false_iff_not, not_not] at none
      rcases split index below with before | rfl
      · exact scanning.empty none.1 index before
      · exact none.2
    · simp only [Bool.or_eq_true, decide_eq_true_eq] at left
      rcases left with earlier | nonzero
      · obtain ⟨index, below, nonzero⟩ := scanning.left earlier
        exact ⟨index, by omega, nonzero⟩
      · exact ⟨here, by omega, nonzero⟩

theorem sfs_itrunc_entries_ensures (blocklen : Nat) :
    Succeeds (sfsItruncEntries blocklen (disk fs (node (disk fs) ino).indirect)) fs
      (Scanning fs ino blocklen 128) := by
  refine ensures_count_up (sfsItruncEntry blocklen) (Scanning fs ino blocklen) _
    (scanning_start sound ino blocklen) ?_
  intro j scan middle below scanning
  exact sfs_itrunc_entry_ensures sound regular found present below scanning

section finishing

variable {blocklen : Nat} {scan : IdScan} {middle : Fs}
  (scanning : Scanning fs ino blocklen 128 scan middle)

include scanning

omit regular in
theorem Scanning.used : InUse middle (node (disk fs) ino).indirect := by
  have self := node_scanned sound found present scan
  have there : (node (scanned fs ino scan) ino).indirect ≠ 0 := by
    rw [self]
    exact present
  have used := scanning.books.used_of_owns (.block ino .indirect) ⟨live_of_loaded found, there, rfl⟩
  simp only [self] at used
  exact used

/-- The indirect block is freed and taken out of the inode. -/
theorem Scanning.emptied (none_left : scan.hasnonzero = false) :
    let after := (middle.freed (node (disk fs) ino).indirect).edited ino
      { sv with i := { sv.i with indirect := 0 }, dirty := true }
    Sound after ∧ Kept fs after := by
  intro after
  obtain ⟨standing, kept, heap, volume⟩ := scanning.frame sound
  have alive := live_of_loaded found
  have same := node_disk found
  have self := node_scanned sound found present scan
  have used := scanning.used sound found present
  have there : (node (scanned fs ino scan) ino).indirect ≠ 0 := by
    rw [self]
    exact present
  have empty : ∀ index, words (scanned fs ino scan (node (scanned fs ino scan) ino).indirect)
      index = 0 := by
    intro index
    rw [self]
    unfold scanned
    rw [update_self, words_of_words]
    exact scanning.empty none_left index index.isLt
  have unmarked : ∀ other, InUse (middle.freed (node (disk fs) ino).indirect) other ↔
      InUse middle other ∧ other ≠ (node (scanned fs ino scan) ino).indirect := by
    rw [self]
    exact in_use_freed middle (node (disk fs) ino).indirect
  obtain ⟨detached, _⟩ := detach_inode scanning.books alive .indirect { sv.i with indirect := 0 }
    ⟨by rw [self, same], by rw [self, same], by rw [self, same]⟩ there
    (pointer_of_indirect (by rw [self, same]) rfl (fun index => by simp [pointer, empty])
      (absurd rfl)) regular (root_live fs) unmarked
  have pointers : ∀ other, live fs other → ∀ pointed,
      pointer (update (disk fs) ino ({ sv.i with indirect := 0 } : Dinode).encode) other pointed =
      pointer (update (scanned fs ino scan) ino
        ({ sv.i with indirect := 0 } : Dinode).encode) other pointed := by
    intro other otherAlive pointed
    obtain rfl | equal := eq_or_ne other ino
    · cases pointed <;> simp [pointer, node_update_self, Dinode.decode_encode]
    · rw [(others_of_inode sound.books alive _ other otherAlive equal).pointer,
        (others_of_inode scanning.books alive _ other otherAlive equal).pointer]
      exact ((others_of_indirect sound.books alive present _ other otherAlive equal).pointer
        pointed).symm
  have books := detached.congr (owns_congr pointers) (fun _ => Iff.rfl)
  have alike := alike_of_size sound.books alive { sv.i with indirect := 0 } (by rw [same])
    (by rw [same]) regular (root_live fs)
  have nbits : (middle.freed (node (disk fs) ino).indirect).freemap.nbits = fs.freemap.nbits :=
    scanning.nbits
  have files : live (middle.freed (node (disk fs) ino).indirect) = live fs := kept.live
  have found' : (middle.freed (node (disk fs) ino).indirect).heap ino = some sv := heap ▸ found
  obtain ⟨sound', kept'⟩ := sound_of_pointers (standing_freed standing used.1) found'
    { sv with i := { sv.i with indirect := 0 }, dirty := true } rfl rfl rfl rfl
    (by rw [disk_freed, volume, nbits, files]; exact books)
    (by rw [disk_freed, volume, files]; exact alike)
  exact ⟨sound', (kept.trans (kept_freed middle _)).trans kept'⟩

omit regular in
/-- The buffer is written back to the indirect block. -/
theorem Scanning.written :
    let after := middle.put (node (disk fs) ino).indirect (ofWords scan.idbuf)
    Sound after ∧ Kept fs after ∧ disk after = scanned fs ino scan := by
  intro after
  obtain ⟨standing, kept, heap, volume⟩ := scanning.frame sound
  have unloaded : middle.heap (node (disk fs) ino).indirect = none := by
    rw [heap]
    exact sound.unloaded_pointer .indirect (live_of_loaded found) present
  obtain ⟨sound', kept'⟩ := sound_of_put standing (ofWords scan.idbuf) unloaded
    (by rw [volume, kept.live, scanning.nbits]; exact scanning.books)
    (by rw [volume, kept.live]; exact scanning.alike)
  refine ⟨sound', kept.trans kept', ?_⟩
  rw [disk_put _ unloaded, volume]
  rfl

omit regular found present in
theorem Scanning.untouched (clean : scan.iddirty = false) : Sound middle := by
  obtain ⟨standing, kept, heap, volume⟩ := scanning.frame sound
  have unchanged : scanned fs ino scan = disk fs := by
    unfold scanned
    rw [scanning.unchanged clean, of_words_words, update_eq_self]
  refine ⟨standing, ?_, fun _ used => used⟩
  rw [scanning.nbits, volume, kept.live, ← unchanged]
  exact scanning.books

omit sound regular found present in
/-- If the file ends before the indirect block, nothing is left in it. -/
theorem Scanning.none_left (short : blocklen < 15) : scan.hasnonzero = false := by
  cases some_left : scan.hasnonzero with
  | false => rfl
  | true =>
    obtain ⟨index, inside, nonzero⟩ := scanning.left some_left
    exact absurd (scanning.cleared index inside (by omega)) nonzero

/-- After the loop the indirect block is freed if nothing is left in it, and written
back otherwise. -/
theorem sfs_itrunc_finish_ensures :
    Succeeds (sfsItruncFinish ino (node (disk fs) ino).indirect scan) middle
      (fun _ after => Sound after ∧ Kept fs after ∧
        (node (disk after) ino).direct = (node (disk fs) ino).direct ∧
        (blocklen < 15 → (node (disk after) ino).indirect = 0)) := by
  obtain ⟨standing, kept, heap, volume⟩ := scanning.frame sound
  have same := node_disk found
  have self := node_scanned sound found present scan
  have used := scanning.used sound found present
  unfold sfsItruncFinish
  by_cases none_left : scan.hasnonzero = false
  · rw [if_pos none_left]
    have found' : middle.heap ino = some sv := heap ▸ found
    obtain ⟨sound', kept'⟩ := scanning.emptied sound regular found present none_left
    refine Ensures.bind_done (sfs_bfree_returns used)
      (ensures_of_done (edit_vnode_returns ino _ sv found') ⟨sound', kept', ?_, fun _ => ?_⟩)
    · rw [disk_edited, node_update_self, Dinode.decode_encode, same]
    · rw [disk_edited, node_update_self, Dinode.decode_encode]
  · rw [if_neg none_left]
    have long : blocklen < 15 → (node (disk fs) ino).indirect = 0 :=
      fun short => absurd (scanning.none_left short) none_left
    by_cases changed : scan.iddirty = true
    · rw [if_pos changed]
      obtain ⟨sound', kept', written⟩ := scanning.written sound found present
      refine ensures_of_done (writeblock_returns standing.ready _ _ used.1) ⟨sound', kept', ?_, ?_⟩
      · rw [written, self]
      · rw [written, self]
        exact long
    · rw [if_neg changed]
      refine ensures_pure ⟨scanning.untouched sound (by simpa using changed), kept, ?_, ?_⟩
      · rw [volume]
      · rw [volume]
        exact long

end finishing

end scanning

/-- The indirect block goes too when the file ends among the direct ones. -/
theorem sfs_itrunc_indirect_ensures (sound : Sound fs) (regular : ino ≠ rootdirIno)
    (found : fs.heap ino = some sv) (blocklen : Nat) :
    Succeeds (sfsItruncIndirect ino blocklen) fs (fun _ after => Sound after ∧ Kept fs after ∧
        (node (disk after) ino).direct = (node (disk fs) ino).direct ∧
        (blocklen < 15 → (node (disk after) ino).indirect = 0)) := by
  have alive := live_of_loaded found
  have same := node_disk found
  refine Ensures.bind_done (vnode_returns found) ?_
  by_cases reaching : blocklen < 142 ∧ sv.i.indirect ≠ 0
  · rw [if_pos reaching, ← same]
    have present : (node (disk fs) ino).indirect ≠ 0 := by
      rw [same]
      exact reaching.2
    have used := sound.used_pointer .indirect alive present
    have stored : fs.device.sectors (node (disk fs) ino).indirect.toNat =
        disk fs (node (disk fs) ino).indirect := by
      have unloaded : fs.heap (node (disk fs) ino).indirect = none :=
        sound.unloaded_pointer .indirect alive present
      simp [disk, unloaded]
    refine Ensures.bind_done (readblock_returns sound.ready used.1) ?_
    rw [stored]
    refine (sfs_itrunc_entries_ensures sound regular found present blocklen).bind ?_
    intro scan middle scanning
    exact sfs_itrunc_finish_ensures sound regular found present scanning
  · rw [if_neg reaching]
    refine ensures_pure ⟨sound, Kept.refl fs, rfl, fun short => ?_⟩
    rw [same]
    by_contra present
    exact reaching ⟨by omega, present⟩

/-- `sfs_itrunc` of a regular file returns. Truncating to nothing leaves no block to
the file. -/
theorem sfs_itrunc_ensures (sound : Sound fs) (regular : ino ≠ rootdirIno)
    (found : fs.heap ino = some sv) (len : Int) :
    Succeeds (sfsItrunc ino len) fs (fun _ after => Sound after ∧ Kept fs after ∧
        (len = 0 → ∀ pointed, pointer (disk after) ino pointed = 0)) := by
  refine (sfs_itrunc_directs_ensures sound regular found _).bind ?_
  rintro _ first ⟨sound₁, kept₁, cleared⟩
  obtain ⟨sv₁, found₁⟩ := kept₁.refs.found found
  refine (sfs_itrunc_indirect_ensures sound₁ regular found₁ _).bind ?_
  rintro _ second ⟨sound₂, kept₂, direct, indirect⟩
  obtain ⟨sv₂, found₂⟩ := kept₂.refs.found found₁
  have alive := live_of_loaded found₂
  have same := node_disk found₂
  obtain ⟨after, kept₃⟩ := sound_of_pointers sound₂.toStanding found₂
    { sv₂ with i := { sv₂.i with size := BitVec.ofInt 32 len }, dirty := true } rfl rfl rfl rfl
    (books_of_inode sound₂.books alive _ (by rw [same]) (by rw [same]))
    (alike_of_size sound₂.books alive _ (by rw [same]) (by rw [same]) regular (root_live second))
  refine ensures_of_done (edit_vnode_returns ino _ sv₂ found₂)
    ⟨after, (kept₁.trans kept₂).trans kept₃, fun empty pointed => ?_⟩
  subst empty
  have gone : sv₂.i.indirect = 0 := by
    rw [← same]
    exact indirect (by decide)
  cases pointed with
  | direct index =>
    simp only [pointer, disk_edited, node_update_self, Dinode.decode_encode]
    rw [← same, direct]
    exact cleared index index.isLt (Nat.zero_le _)
  | indirect => simpa only [pointer, disk_edited, node_update_self, Dinode.decode_encode] using gone
  | entry index =>
    simp [pointer, disk_edited, node_update_self, Dinode.decode_encode, gone]

end Os161.Sfs
