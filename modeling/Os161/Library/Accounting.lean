import Mathlib.Logic.Basic

/-!
# Accounting for blocks

Blocks are reached in ways: `owns way block` says that a way leads to a block. An
allocator keeps a set of used blocks. The books are in order when a block is used
exactly when some way leads to it and no two ways lead to the same block. A block
taken from the allocator is entered under one way, a block given back is crossed
out, and both keep the books in order.
-/
namespace Os161.Library

universe u v

/-- The used blocks are the owned ones, and each has one owner. -/
structure Accounting {Way : Type u} {Block : Type v} (owns : Way → Block → Prop)
    (used : Block → Prop) : Prop where
  exact : ∀ block, used block ↔ ∃ way, owns way block
  unique : ∀ first second block, owns first block → owns second block → first = second

namespace Accounting

variable {Way : Type u} {Block : Type v} {owns owns' : Way → Block → Prop}
  {used used' : Block → Prop}

section

variable (books : Accounting owns used)

include books

/-- An owned block is used. -/
theorem used_of_owns (way : Way) {block : Block} (owned : owns way block) : used block :=
  (books.exact block).mpr ⟨way, owned⟩

/-- Different ways lead to different blocks. -/
theorem apart (first second : Way) {block other : Block} (left : owns first block)
    (right : owns second other) (different : first ≠ second) : block ≠ other := by
  intro same
  subst same
  exact different (books.unique first second block left right)

/-- No other way leads to a block that one way leads to. -/
theorem untouched {way other : Way} {block : Block} (owned : owns way block) (different : other ≠ way)
    (target : Block) : owns other target ↔ owns other target ∧ target ≠ block :=
  ⟨fun also => ⟨also, books.apart _ _ also owned different⟩, And.left⟩

/-- A block that is not used is not owned. -/
theorem ne_of_unused (way : Way) {block other : Block} (unused : ¬ used block)
    (owned : owns way other) : block ≠ other := by
  intro same
  subst same
  exact unused (books.used_of_owns way owned)

/-- The books only depend on who owns what and on what is used. -/
theorem congr (same : ∀ way block, owns' way block ↔ owns way block)
    (marks : ∀ block, used' block ↔ used block) : Accounting owns' used' := by
  constructor
  · intro block
    simp [marks, books.exact, same]
  · intro first second block left right
    exact books.unique first second block ((same _ _).mp left) ((same _ _).mp right)

/-- Enter a block that was not used under one way. -/
theorem claim (way : Way) {block : Block} (fresh : ¬ used block)
    (entered : ∀ other target, owns' other target ↔
      owns other target ∨ (other = way ∧ target = block))
    (marked : ∀ target, used' target ↔ used target ∨ target = block) : Accounting owns' used' := by
  have unowned : ∀ other, ¬ owns other block := fun other owned => fresh (books.used_of_owns other owned)
  constructor
  · intro target
    simp only [marked, books.exact, entered]
    constructor
    · rintro (⟨other, owned⟩ | same)
      · exact ⟨other, Or.inl owned⟩
      · exact ⟨way, Or.inr ⟨rfl, same⟩⟩
    · rintro ⟨other, owned | ⟨_, same⟩⟩
      · exact Or.inl ⟨other, owned⟩
      · exact Or.inr same
  · intro first second target left right
    rcases (entered _ _).mp left with left | ⟨left, rfl⟩
    · rcases (entered _ _).mp right with right | ⟨_, rfl⟩
      · exact books.unique first second target left right
      · exact absurd left (unowned first)
    · rcases (entered _ _).mp right with right | ⟨right, _⟩
      · exact absurd right (unowned second)
      · exact left.trans right.symm

/-- Cross out a block. -/
theorem release (block : Block)
    (crossed : ∀ other target, owns' other target ↔ owns other target ∧ target ≠ block)
    (unmarked : ∀ target, used' target ↔ used target ∧ target ≠ block) :
    Accounting owns' used' := by
  constructor
  · intro target
    simp [unmarked, books.exact, crossed, exists_and_right]
  · intro first second target left right
    exact books.unique first second target ((crossed _ _).mp left).1 ((crossed _ _).mp right).1

end

end Accounting

end Os161.Library
