import Mathlib.Tactic.SplitIfs

/-!
# `memmove`

Memory is a byte for each address, and no range rolls over its top. An element is loaded whole
before it is stored.
-/
namespace Os161.Kern

variable {Byte : Type} (dst src : Nat)

/-- `d[i] = s[i]` for elements of some size. -/
def copyElement (size i : Nat) (memory : Nat → Byte) (address : Nat) : Byte :=
  if dst + size * i ≤ address ∧ address < dst + size * (i + 1) then memory (address - dst + src)
  else memory address

/-- The loop of `memcpy`, which goes up. -/
def copyUp (size : Nat) : Nat → (Nat → Byte) → Nat → Byte
  | 0, memory => memory
  | i + 1, memory => copyElement dst src size i (copyUp size i memory)

/-- The loop of `memmove`, which goes down. -/
def copyDown (size : Nat) : Nat → (Nat → Byte) → Nat → Byte
  | 0, memory => memory
  | i + 1, memory => copyDown size i (copyElement dst src size i memory)

/-- `sizeof(long)`. -/
abbrev longSize : Nat := 4

variable (len : Nat) (memory : Nat → Byte)

def memcpy : Nat × (Nat → Byte) :=
  if dst % longSize = 0 ∧ src % longSize = 0 ∧ len % longSize = 0 then
    (dst, copyUp dst src longSize (len / longSize) memory)
  else (dst, copyUp dst src 1 len memory)

def memmove : Nat × (Nat → Byte) :=
  if dst < src then memcpy dst src len memory
  else if dst % longSize = 0 ∧ src % longSize = 0 ∧ len % longSize = 0 then
    (dst, copyDown dst src longSize (len / longSize) memory)
  else (dst, copyDown dst src 1 len memory)

/-- The destination has the bytes the source had, and nothing else has changed. -/
def snapshot (address : Nat) : Byte :=
  if dst ≤ address ∧ address < dst + len then memory (address - dst + src) else memory address

/-- Going up, an element of a source that lies behind has not been overwritten when it is read. -/
theorem copy_up_snapshot (behind : dst ≤ src) (size count : Nat) :
    copyUp dst src size count memory = snapshot dst src (size * count) memory := by
  induction count with
  | zero =>
    funext address
    exact (if_neg (by omega)).symm
  | succ i ih =>
    funext address
    simp only [copyUp, ih, copyElement, snapshot, Nat.mul_succ]
    split_ifs <;> first | rfl | omega

/-- Going down, neither has one of a source that does not. -/
theorem copy_down_snapshot (before : src ≤ dst) (size count : Nat) :
    copyDown dst src size count memory = snapshot dst src (size * count) memory := by
  induction count generalizing memory with
  | zero =>
    funext address
    exact (if_neg (by omega)).symm
  | succ i ih =>
    funext address
    simp only [copyDown, ih, copyElement, snapshot, Nat.mul_succ]
    split_ifs <;> first | rfl | omega

/-- However the ranges overlap, `memmove` copies what was there. -/
theorem memmove_copies_snapshot : memmove dst src len memory = (dst, snapshot dst src len memory) := by
  have words (aligned : len % longSize = 0) : longSize * (len / longSize) = len :=
    Nat.mul_div_cancel' (Nat.dvd_of_mod_eq_zero aligned)
  unfold memmove memcpy
  split_ifs with behind aligned aligned
  · rw [copy_up_snapshot dst src memory (by omega), words aligned.2.2]
  · rw [copy_up_snapshot dst src memory (by omega), Nat.one_mul]
  · rw [copy_down_snapshot dst src memory (by omega), words aligned.2.2]
  · rw [copy_down_snapshot dst src memory (by omega), Nat.one_mul]

end Os161.Kern
