import Mathlib.Data.Fintype.Card

/-!
# Counting the slots that refer to an object

A finite set of slots, each empty or referring to an object. `referring` counts
the slots that refer to a given object, and a change of one slot moves that count
by what the slot gives up and what it takes. `Balanced` relates the count to a
heap whose objects carry their own reference count, and the rules below are the
three moves a reference-counting program makes: a first reference to a new
object, a further reference to an old one, and the end of the last reference.
-/
namespace Os161.Library.References

open Function

universe u v

variable {Slot : Type u} {Obj : Type v}

/-- The number of slots that refer to an object. -/
def referring [Fintype Slot] [DecidableEq Obj] (slots : Slot → Option Obj) (object : Obj) : Nat :=
  (Finset.univ.filter (fun slot => slots slot = some object)).card

/-- One when a reference is to the object, and zero otherwise. -/
def weight [DecidableEq Obj] (reference : Option Obj) (object : Obj) : Nat :=
  if reference = some object then 1 else 0

attribute [local simp] weight

/-- Changing one slot moves the count by the difference of the two references. -/
theorem referring_update [Fintype Slot] [DecidableEq Slot] [DecidableEq Obj]
    (slots : Slot → Option Obj) (slot : Slot) (reference : Option Obj) (object : Obj) :
    referring (update slots slot reference) object + weight (slots slot) object =
      referring slots object + weight reference object := by
  have others : (Finset.univ.filter
        (fun other => update slots slot reference other = some object)).erase slot =
      (Finset.univ.filter (fun other => slots other = some object)).erase slot := by
    ext other
    by_cases same : other = slot <;> simp [same]
  have before := Finset.card_erase_add_one (s := Finset.univ.filter
    (fun other => slots other = some object)) (a := slot)
  have absent_after := Finset.erase_eq_of_notMem (s := Finset.univ.filter
    (fun other => update slots slot reference other = some object)) (a := slot)
  have absent_before := Finset.erase_eq_of_notMem (s := Finset.univ.filter
    (fun other => slots other = some object)) (a := slot)
  unfold referring weight
  split <;> split <;> grind

/-- An object is referred to when its count is positive. -/
theorem referring_pos [Fintype Slot] [DecidableEq Obj] (slots : Slot → Option Obj) (object : Obj) :
    0 < referring slots object ↔ ∃ slot, slots slot = some object := by
  simp [referring, Finset.card_pos, Finset.filter_nonempty_iff]

/-- A heap in balance with the slots: exactly the allocated objects are referred
to, and each carries the number of its references. -/
def Balanced [Fintype Slot] [DecidableEq Obj] (slots : Slot → Option Obj)
    (count : Obj → Option Int) : Prop :=
  ∀ object, match count object with
    | none => referring slots object = 0
    | some number => number = referring slots object ∧ 0 < referring slots object

/-- Nothing is allocated and every slot is empty. -/
theorem balanced_empty [Fintype Slot] [DecidableEq Obj] {slots : Slot → Option Obj}
    {count : Obj → Option Int} (unused : ∀ slot, slots slot = none)
    (unallocated : ∀ object, count object = none) : Balanced slots count := by
  intro object
  simp [unallocated, referring, unused]

section

variable [Fintype Slot] [DecidableEq Slot] [DecidableEq Obj] {slots : Slot → Option Obj}
  {count : Obj → Option Int} (balanced : Balanced slots count) (slot : Slot) (object : Obj)

include balanced

/-- The first reference to a new object goes into an empty slot with count one. -/
theorem Balanced.first (unused : slots slot = none) (unallocated : count object = none) :
    Balanced (update slots slot (some object)) (update count object (some 1)) := by
  intro other
  have moved := referring_update slots slot (some object) other
  have before := balanced other
  by_cases same : other = object
  · simp_all
  · have differs : object ≠ other := Ne.symm same
    simp_all

/-- A further reference to an old object goes into an empty slot and counts one
more. -/
theorem Balanced.share {number : Int} (unused : slots slot = none)
    (allocated : count object = some number) :
    Balanced (update slots slot (some object)) (update count object (some (number + 1))) := by
  intro other
  have moved := referring_update slots slot (some object) other
  have before := balanced other
  by_cases same : other = object
  · simp_all
  · have differs : object ≠ other := Ne.symm same
    simp_all

/-- The last reference ends with its object. -/
theorem Balanced.last (refers : slots slot = some object) (single : count object = some 1) :
    Balanced (update slots slot none) (update count object none) := by
  intro other
  have moved := referring_update slots slot none other
  have before := balanced other
  by_cases same : other = object
  · simp_all
    omega
  · have differs : object ≠ other := Ne.symm same
    simp_all

end

/-- A reference in a balanced heap is to an allocated object. -/
theorem Balanced.allocated [Fintype Slot] [DecidableEq Obj]
    {slots : Slot → Option Obj} {count : Obj → Option Int} (balanced : Balanced slots count)
    (slot : Slot) (object : Obj) (refers : slots slot = some object) :
    ∃ number, count object = some number := by
  have counted := (referring_pos slots object).mpr ⟨slot, refers⟩
  have before := balanced object
  cases found : count object with
  | none =>
    rw [found] at before
    exact absurd before (Nat.ne_of_gt counted)
  | some number => exact ⟨number, rfl⟩

end Os161.Library.References
