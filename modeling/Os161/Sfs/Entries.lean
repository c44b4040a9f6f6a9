import Os161.Sfs.Trees

/-!
# Writing a directory entry

An entry is written to a slot of the root directory, which may be the first one
past its end: the block of the slot changes in the 64 bytes of the entry, and the
size of the directory grows if the slot is new. The directory as a list then has
the entry in that slot and is otherwise the same.
-/
namespace Os161.Sfs

open Os161.Kern Os161.Library Function

/-- A list of entries with an entry put in a slot, at the end when the slot is new. -/
def putEntry (entries : List Direntry) (slot : Nat) (direntry : Direntry) : List Direntry :=
  if slot < entries.length then entries.set slot direntry else entries ++ [direntry]

variable {entries : List Direntry} {pointed : Pointer} {fileblock slot : Nat}

/-- An entry of the new list is the one that was put, or an old one. -/
theorem mem_put_entry {direntry other : Direntry}
    (member : other ∈ putEntry entries slot direntry) :
    other = direntry ∨ other ∈ entries := by
  unfold putEntry at member
  split at member
  · exact (List.mem_or_eq_of_mem_set member).symm
  · rw [List.mem_append, List.mem_singleton] at member
    exact member.symm

/-- An old entry is still there unless it was in the slot. -/
theorem mem_put_entry_of_mem {other : Direntry} (member : other ∈ entries) (slot : Nat)
    (direntry : Direntry) :
    other ∈ putEntry entries slot direntry ∨ ∃ below : slot < entries.length, entries[slot] = other := by
  obtain ⟨index, below, rfl⟩ := List.getElem_of_mem member
  unfold putEntry
  split
  · next inside =>
    obtain rfl | same := eq_or_ne slot index
    · exact Or.inr ⟨below, rfl⟩
    · refine Or.inl (List.mem_iff_getElem.mpr ⟨index, by simpa using below, ?_⟩)
      rw [List.getElem_set_ne same]
  · exact Or.inl (List.mem_append_left _ member)

theorem get_put_entry {other : Nat} (below : other < entries.length) (different : slot ≠ other)
    (direntry : Direntry) :
    ∃ inside : other < (putEntry entries slot direntry).length,
      (putEntry entries slot direntry)[other] = entries[other] := by
  unfold putEntry
  split
  · exact ⟨by simpa using below, List.getElem_set_ne different _⟩
  · exact ⟨by simp only [List.length_append]; omega, List.getElem_append_left below⟩

/-- A list stays pairwise related when the entry that is put is related to all the
others. -/
theorem pairwise_put_entry {related : Direntry → Direntry → Prop}
    (symmetric : ∀ first second, related first second → related second first)
    (pairwise : entries.Pairwise related) (slot : Nat) (direntry : Direntry)
    (new : ∀ index (below : index < entries.length), index ≠ slot → related entries[index] direntry) :
    (putEntry entries slot direntry).Pairwise related := by
  unfold putEntry
  split
  · rw [List.pairwise_iff_getElem] at pairwise ⊢
    intro first second firstBelow secondBelow order
    simp only [List.length_set] at firstBelow secondBelow
    simp only [List.getElem_set]
    by_cases atFirst : slot = first
    · have atSecond : slot ≠ second := by omega
      simp only [atFirst, if_true]
      rw [if_neg (by omega)]
      exact symmetric _ _ (new second secondBelow (Ne.symm atSecond))
    · rw [if_neg atFirst]
      split
      · exact new first firstBelow (Ne.symm atFirst)
      · exact pairwise first second firstBelow secondBelow order
  · next outside =>
    refine List.pairwise_append.mpr
      ⟨pairwise, List.pairwise_singleton _ _, fun first member second only => ?_⟩
    obtain ⟨index, below, rfl⟩ := List.getElem_of_mem member
    rw [List.mem_singleton.mp only]
    exact new index below (by omega)

/-- Putting an entry in a free slot, or at the end, links what it names once more. -/
theorem links_put_free (direntry : Direntry) {ino : Ino} (nonzero : ino ≠ 0)
    (free : ∀ below : slot < entries.length, entries[slot].ino = 0) :
    links (putEntry entries slot direntry) ino =
      links entries ino + if direntry.ino = ino then 1 else 0 := by
  unfold putEntry links
  split
  · next below =>
    have old : ¬ entries[slot].ino = ino := fun same => nonzero (same.symm.trans (free below))
    rw [List.countP_set below]
    simp [old]
  · rw [List.countP_append, List.countP_singleton]
    simp

/-- Freeing a slot takes one link from what it named. -/
theorem links_put_over (below : slot < entries.length) {direntry : Direntry}
    (free : direntry.ino = 0) {ino : Ino} (nonzero : ino ≠ 0) :
    links (putEntry entries slot direntry) ino + (if entries[slot].ino = ino then 1 else 0) =
      links entries ino := by
  have new : ¬ direntry.ino = ino := fun same => nonzero (same.symm.trans free)
  unfold putEntry links
  rw [if_pos below, List.countP_set below]
  simp only [decide_eq_true_eq, new, if_false, Nat.add_zero]
  by_cases old : entries[slot].ino = ino
  · have positive : 0 < entries.countP (fun direntry => decide (direntry.ino = ino)) :=
      List.countP_pos_iff.mpr ⟨entries[slot], List.getElem_mem below, by simp [old]⟩
    rw [if_pos old]
    omega
  · rw [if_neg old]
    rfl

/-- Different blocks of a file are in different places. -/
theorem place_injective {other : Nat} (left : place fileblock = some pointed)
    (right : place other = some pointed) : fileblock = other := by
  unfold place at left right
  split at left
  · split at right
    · cases left
      simp only [Option.some.injEq, Pointer.direct.injEq, Fin.mk.injEq] at right
      exact right.symm
    · split at right
      · cases left
        cases right
      · cases right
  · split at left
    · split at right
      · cases left
        cases right
      · split at right
        · cases left
          simp only [Option.some.injEq, Pointer.entry.injEq, Fin.mk.injEq] at right
          omega
        · cases right
    · cases left

theorem place_isSome (placed : place fileblock = some pointed) : fileblock < 143 := by
  unfold place at placed
  split at placed
  · omega
  · split at placed
    · assumption
    · cases placed

theorem exists_place (inside : fileblock < 143) : ∃ pointed, place fileblock = some pointed := by
  unfold place
  split
  · exact ⟨_, rfl⟩
  · exact ⟨_, rfl⟩

variable {freemapblocks : Nat} {disk : Disk} {live used : Ino → Prop} {ino : Ino}

/-- What a file reads as after one of its blocks of data was written. -/
theorem contents_of_data (books : Accounting (Owns freemapblocks disk live) used) (alive : live ino)
    (present : pointer disk ino pointed ≠ 0) (placed : place fileblock = some pointed)
    (written : Block) (other : Nat) :
    contents (update disk (pointer disk ino pointed) written) ino other =
      if other = fileblock then written else contents disk ino other := by
  have data : pointed ≠ .indirect := fun indirect =>
    place_ne_indirect fileblock (indirect ▸ placed)
  have pointers := pointer_of_data books alive present data written
  obtain rfl | same := eq_or_ne other fileblock
  · simp only [contents, placed, target, if_true]
    rw [pointers, if_neg present, update_self]
  rw [if_neg same]
  unfold contents
  cases found : place other with
  | none => rfl
  | some place =>
    have different : place ≠ pointed := fun equal =>
      same (place_injective found (equal ▸ placed))
    refine target_of_pointer (pointers place) (fun there => ?_)
    exact update_of_ne (pointer_ne_pointer books place pointed alive there present different) _ _

/-- The slots after an entry was written in its block. -/
theorem slot_of_data (books : Accounting (Owns freemapblocks disk live) used)
    (rootLive : live rootdirIno) (present : pointer disk rootdirIno pointed ≠ 0)
    (placed : place (slot / 8) = some pointed) (direntry : Direntry) (other : Nat) :
    slotEntry (update disk (pointer disk rootdirIno pointed)
        (patch (contents disk rootdirIno (slot / 8)) (64 * (slot % 8)) direntry.encode)) other =
      if other = slot then direntry else slotEntry disk other := by
  unfold slotEntry
  rw [contents_of_data books rootLive present placed]
  by_cases block : other / 8 = slot / 8
  · rw [if_pos block]
    obtain rfl | same := eq_or_ne other slot
    · rw [if_pos rfl, slice_patch_same (by omega), Direntry.decode_encode]
    · rw [if_neg same, slice_patch_apart (by omega), block]
  · have different : other ≠ slot := fun same => block (by rw [same])
    rw [if_neg block, if_neg different]

/-- The directory after its slots changed in one place. -/
theorem directory_of_slots {before after : Disk} (slot : Nat) (direntry : Direntry)
    (slots : ∀ other, slotEntry after other = if other = slot then direntry else slotEntry before other)
    (within : slot ≤ nentries before)
    (size : nentries after = if slot < nentries before then nentries before else nentries before + 1) :
    directory after = putEntry (directory before) slot direntry := by
  have length : (directory before).length = nentries before := by
    unfold directory
    rw [List.length_map, List.length_range]
  unfold putEntry
  rw [length]
  by_cases old : slot < nentries before
  · rw [if_pos old] at size ⊢
    unfold directory
    rw [size]
    apply List.ext_getElem
    · simp
    · intro index _ _
      simp only [List.getElem_map, List.getElem_range, List.getElem_set, slots]
      by_cases same : index = slot
      · simp [same]
      · simp [same, Ne.symm same]
  · rw [if_neg old] at size ⊢
    have last : slot = nentries before := by omega
    have earlier : (List.range (nentries before)).map (slotEntry after) = directory before := by
      apply List.map_congr_left
      intro index member
      have below := List.mem_range.mp member
      rw [slots, if_neg (by omega)]
    unfold directory at earlier ⊢
    rw [size, List.range_succ, List.map_append, List.map_singleton, slots, if_pos last.symm, earlier]

end Os161.Sfs
