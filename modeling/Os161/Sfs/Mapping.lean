import Os161.Sfs.Bmap

/-!
# Where the blocks of a file are

The disk block of each block of a file, read off the inode in memory and the indirect
block on the device. A file has 15 direct blocks and 128 in its indirect block.
-/
namespace Os161.Sfs

open Os161.Kern

/-- The entries of the indirect block on the device. -/
def Dinode.entries (i : Dinode) (sectors : Nat → Block) : Fin 128 → Ino :=
  Sfs.words (sectors i.indirect.toNat)

/-- The block number in a place of a file, by the inode in memory and the indirect block
on the device. -/
def Dinode.pointer (i : Dinode) (sectors : Nat → Block) : Pointer → Ino
  | .direct index => i.direct index
  | .indirect => i.indirect
  | .entry index => if i.indirect = 0 then 0 else i.entries sectors index

/-- The disk block of a block of a file, zero where there is none. -/
def Dinode.mapping (i : Dinode) (sectors : Nat → Block) (fileblock : Nat) : Ino :=
  match place fileblock with
  | none => 0
  | some pointed => i.pointer sectors pointed

section mapping

variable (i : Dinode) (sectors : Nat → Block)

theorem mapping_direct (index : Fin 15) : i.mapping sectors index = i.direct index := by
  unfold Dinode.mapping place
  rw [dif_pos index.isLt]
  rfl

theorem mapping_entry (index : Fin 128) :
    i.mapping sectors (15 + index) = if i.indirect = 0 then 0 else i.entries sectors index := by
  unfold Dinode.mapping place
  rw [dif_neg (by omega), dif_pos (by omega)]
  simp [Dinode.pointer]

theorem mapping_beyond {fileblock : Nat} (beyond : 143 ≤ fileblock) :
    i.mapping sectors fileblock = 0 := by
  unfold Dinode.mapping place
  rw [dif_neg (by omega), dif_neg (by omega)]

/-- A block of a file is direct, or an entry of the indirect block, or past any file. -/
theorem fileblock_cases (fileblock : Nat) :
    (∃ index : Fin 15, fileblock = index) ∨ (∃ index : Fin 128, fileblock = 15 + index) ∨
      143 ≤ fileblock := by
  by_cases direct : fileblock < 15
  · exact Or.inl ⟨⟨fileblock, direct⟩, rfl⟩
  · by_cases entry : fileblock < 143
    · exact Or.inr (Or.inl ⟨⟨fileblock - 15, by omega⟩, by simp only []; omega⟩)
    · exact Or.inr (Or.inr (by omega))

end mapping

end Os161.Sfs
