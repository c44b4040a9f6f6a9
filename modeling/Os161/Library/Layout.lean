import Mathlib.Data.List.Basic

/-!
# Items laid end to end

Items that have a length are laid one behind the other from an address on. An item is
placed where the items before it end. Items that are placed lie within the extent of the
list and do not overlap, and cutting the list at a place cuts it at the item.
-/
namespace Os161.Library.Layout

universe u

variable {Item : Type u} (length : Item → Nat)

/-- The length of a list of items. -/
def extent : List Item → Nat
  | [] => 0
  | item :: rest => length item + extent rest

theorem extent_append (first second : List Item) :
    extent length (first ++ second) = extent length first + extent length second := by
  induction first with
  | nil => simp [extent]
  | cons item rest ih =>
    simp only [List.cons_append, extent, ih]
    omega

/-- The items of a list, laid from an address on, with an item at a place. -/
def Placed : Nat → List Item → Nat → Item → Prop
  | _, [], _, _ => False
  | start, item :: rest, place, placed =>
    (place = start ∧ placed = item) ∨ Placed (start + length item) rest place placed

theorem placed_append (start place : Nat) (first second : List Item) (placed : Item) :
    Placed length start (first ++ second) place placed ↔ Placed length start first place placed ∨
        Placed length (start + extent length first) second place placed := by
  induction first generalizing start with
  | nil => simp [Placed, extent]
  | cons item rest ih =>
    simp [Placed, extent, ih, or_assoc, Nat.add_assoc]

theorem Placed.bounds {start place : Nat} {items : List Item} {placed : Item}
    (is_placed : Placed length start items place placed) :
    start ≤ place ∧ place + length placed ≤ start + extent length items := by
  induction items generalizing start with
  | nil => exact is_placed.elim
  | cons item rest ih =>
    simp only [extent]
    rcases is_placed with ⟨rfl, rfl⟩ | later
    · omega
    · have bounds := ih later
      omega

/-- The list is cut at the item that is placed. -/
theorem placed_iff (start place : Nat) (items : List Item) (placed : Item) :
    Placed length start items place placed ↔
      ∃ before after, items = before ++ placed :: after ∧ place = start + extent length before := by
  constructor
  · intro is_placed
    induction items generalizing start with
    | nil => exact is_placed.elim
    | cons item rest ih =>
      rcases is_placed with ⟨rfl, rfl⟩ | later
      · exact ⟨[], rest, rfl, rfl⟩
      · obtain ⟨before, after, rfl, rfl⟩ := ih _ later
        exact ⟨item :: before, after, rfl, by simp only [extent]; omega⟩
  · rintro ⟨before, after, rfl, rfl⟩
    exact (placed_append length start _ before (placed :: after) placed).mpr (Or.inr (Or.inl ⟨rfl, rfl⟩))

/-- Two items that are placed are the same or do not overlap. -/
theorem placed_disjoint {start place other : Nat} {items : List Item} {first second : Item}
    (is_placed : Placed length start items place first)
    (other_placed : Placed length start items other second) :
    (place = other ∧ first = second) ∨ place + length first ≤ other ∨
      other + length second ≤ place := by
  induction items generalizing start with
  | nil => exact is_placed.elim
  | cons item rest ih =>
    rcases is_placed with ⟨rfl, rfl⟩ | later
    · rcases other_placed with ⟨rfl, rfl⟩ | otherLater
      · exact Or.inl ⟨rfl, rfl⟩
      · have bounds := otherLater.bounds
        exact Or.inr (Or.inl bounds.1)
    · rcases other_placed with ⟨rfl, rfl⟩ | otherLater
      · have bounds := later.bounds
        exact Or.inr (Or.inr bounds.1)
      · exact ih later otherLater

end Os161.Library.Layout
