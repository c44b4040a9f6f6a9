import Mathlib.Data.Nat.Digits.Lemmas
import Mathlib.Logic.Function.Basic

/-!
# Integers in `printf` and `atoi`

`__pf_printnum` stores the digits of a number from right to left in a buffer with a byte for
each digit of the longest octal number and one for the NUL. `__pf_printstuff` adds the sign
and the prefix of the base and fills the field. `atoi` reads such a text again.
-/
namespace Os161.Kern

open Function

/-- The types of the integers in a format. -/
inductive Conversion
  | d
  | o
  | u
  | x
  | p
  deriving DecidableEq

/-- The base that `__pf_setbase` sets. -/
def Conversion.base : Conversion → Nat
  | .d | .u => 10
  | .x | .p => 16
  | .o => 8

/-- A character of `digits`. -/
def digit (value : Nat) : Char := "0123456789abcdef".toList.getD value '0'

abbrev numberBufSize : Nat := 8 * 8 / 3 + 2

/-- The loop of `__pf_printnum`, with so many bytes left before the last digit. A digit that
is stored before the first byte ends it without a buffer. -/
def storeDigits (base : Nat) : Nat → Nat → (Nat → Char) → Option (Nat × (Nat → Char))
  | 0, _, _ => none
  | x + 1, xnum, buf =>
    let stored := update buf x (digit (xnum % base))
    if 0 < xnum / base then storeDigits base x (xnum / base) stored else some (x, stored)

/-- `__pf_printnum` up to the prefixes: where the text starts, and the buffer. -/
def storeNumber (base : Nat) (num : BitVec 64) (buf : Nat → Char) : Option (Nat × (Nat → Char)) :=
  storeDigits base (numberBufSize - 1) num.toNat (update buf (numberBufSize - 1) '\x00')

/-- The values of the digits of a number, from left to right. -/
structure Numeral (base num : Nat) (values : List Nat) : Prop where
  small : ∀ value ∈ values, value < base
  leading : values.head? = some 0 → values = [0]
  denotes : Nat.ofDigits base values.reverse = num

/-- One more digit on the right. -/
theorem Numeral.step {base num : Nat} {values : List Nat} (more : 0 < num / base)
    (numeral : Numeral base (num / base) values) : Numeral base num (values ++ [num % base]) := by
  have positive : 0 < base := Nat.pos_of_ne_zero (by rintro rfl; simp at more)
  refine ⟨fun value member => ?_, fun zero => ?_, ?_⟩
  · rcases List.mem_append.mp member with before | here
    · exact numeral.small value before
    · exact List.mem_singleton.mp here ▸ Nat.mod_lt num positive
  · have denotes := numeral.denotes
    cases values with
    | nil => simp [← denotes] at more
    | cons first rest => simp [numeral.leading zero, ← denotes] at more
  · rw [List.reverse_append, List.reverse_singleton, List.singleton_append, Nat.ofDigits_cons,
      numeral.denotes]
    exact Nat.mod_add_div num base

/-- The loop stores the digits in the bytes before the last one, if there are enough. -/
theorem store_digits_text {base : Nat} (large : 2 ≤ base) (x num : Nat) (buf : Nat → Char)
    (room : 0 < x) (fits : num < base ^ x) :
    ∃ y after values, storeDigits base x num buf = some (y, after) ∧ y < x ∧
      (∀ place, x ≤ place → after place = buf place) ∧
      (List.range' y (x - y)).map after = values.map digit ∧ Numeral base num values := by
  induction x generalizing num buf with
  | zero => cases room
  | succ x ih =>
    unfold storeDigits
    by_cases small : num < base
    · refine ⟨x, update buf x (digit num), [num], ?_, by omega, fun place above => ?_, ?_, ?_⟩
      · simp [Nat.div_eq_of_lt small, Nat.mod_eq_of_lt small]
      · exact update_of_ne (by omega) _ _
      · simp
      · exact ⟨by simpa using small, by simp, by simp⟩
    · have more : 0 < num / base := Nat.div_pos (by omega) (by omega)
      have left : num / base < base ^ x := Nat.div_lt_of_lt_mul (by rwa [← Nat.pow_succ'])
      have before : 0 < x := Nat.pos_of_ne_zero (by rintro rfl; simp at left; omega)
      obtain ⟨y, after, values, run, within, kept, text, numeral⟩ :=
        ih (num / base) (update buf x (digit (num % base))) before left
      refine ⟨y, after, _, by simpa [more] using run, by omega, fun place above => ?_, ?_,
        numeral.step more⟩
      · rw [kept place (by omega), update_of_ne (by omega)]
      · rw [List.map_append, ← text, show x + 1 - y = x - y + 1 by omega, List.range'_1_concat,
          List.map_append, show y + (x - y) = x by omega]
        simp [kept x]

/-- `__pf_printnum` leaves the digits at the end of the buffer. -/
theorem store_number_text (conversion : Conversion) (num : BitVec 64) (buf : Nat → Char) :
    ∃ x after values, storeNumber conversion.base num buf = some (x, after) ∧ x < 22 ∧
      (∀ place, 22 ≤ place → after place = update buf 22 '\x00' place) ∧
      (List.range' x (22 - x)).map after = values.map digit ∧
      Numeral conversion.base num.toNat values := by
  refine store_digits_text ?_ 22 num.toNat _ (by decide) ?_
  · cases conversion <;> decide
  · exact Nat.lt_of_lt_of_le num.isLt (by cases conversion <;> decide)

/-- The digits of every number fit into the buffer. They end in a NUL, do not start with a
zero but for the number zero, and denote the number. -/
theorem number_in_buffer (conversion : Conversion) (num : BitVec 64) (buf : Nat → Char) :
    ∃ x after values, storeNumber conversion.base num buf = some (x, after) ∧
      x < numberBufSize - 1 ∧ (∀ place, numberBufSize ≤ place → after place = buf place) ∧
      after (numberBufSize - 1) = '\x00' ∧
      (List.range' x (numberBufSize - 1 - x)).map after = values.map digit ∧
      (∀ value ∈ values, value < conversion.base) ∧ (values.head? = some 0 → values = [0]) ∧
      Nat.ofDigits conversion.base values.reverse = num.toNat := by
  obtain ⟨x, after, values, run, within, kept, text, numeral⟩ := store_number_text conversion num buf
  refine ⟨x, after, values, run, within, fun place above => ?_, ?_, text, numeral.small,
    numeral.leading, numeral.denotes⟩
  · rw [kept place (Nat.le_of_lt above), update_of_ne (Nat.ne_of_gt above)]
  · exact (kept 22 (Nat.le_refl 22)).trans (update_self _ _ _)

/-- `PF`, for one field. -/
structure Pf where
  num : BitVec 64 := 0
  sign : Bool := false
  spacing : Nat := 0
  rightspc : Bool := false
  fillchar : Char := ' '
  base : Nat := 0
  baseprefix : Bool := false
  altformat : Bool := false

section

variable (pf : Pf) {width : Nat} (arg : BitVec width) (conversion : Conversion)
  (first second stuff : List Char)

/-- `__pf_getnum`, for an argument of 32 bits or a `long long`. -/
def pfGetnum : Pf :=
  let num := if conversion = .d then arg.signExtend 64 else arg.setWidth 64
  let negative := conversion = .d ∧ num.toInt < 0
  { pf with sign := pf.sign || negative, num := if negative then -num else num }

def pfSetbase : Pf :=
  { pf with
    base := conversion.base
    baseprefix := pf.baseprefix || pf.altformat || conversion = .p }

/-- What `__pf_printstuff` prints. Nothing is filled if the field is full. -/
def pfPrintstuff : List Char :=
  let fill := List.replicate (pf.spacing - (first.length + second.length + stuff.length))
    pf.fillchar
  if pf.rightspc then first ++ second ++ stuff ++ fill
  else if pf.fillchar = '0' then first ++ second ++ fill ++ stuff
  else fill ++ (first ++ second ++ stuff)

/-- The end of `__pf_printnum`, with the sign and the prefix of the base. -/
def pfPrintsigned : List Char :=
  pfPrintstuff pf (if pf.sign then ['-'] else [])
    (if pf.baseprefix ∧ pf.base = 16 then ['0', 'x']
      else if pf.baseprefix ∧ pf.base = 8 then ['0'] else [])
    stuff

/-- What `__pf_send` does at the letter of an integer type. The string that is printed is
what is in the buffer before the NUL. -/
def printInteger (buf : Nat → Char) : Option (List Char) :=
  let pf := pfSetbase (pfGetnum pf arg conversion) conversion
  (storeNumber pf.base pf.num buf).map (fun stored =>
    pfPrintsigned pf ((List.range' stored.1 (numberBufSize - 1 - stored.1)).map stored.2))

theorem print_integer_text (buf : Nat → Char) :
    ∃ values, printInteger pf arg conversion buf =
        some (pfPrintsigned (pfSetbase (pfGetnum pf arg conversion) conversion)
          (values.map digit)) ∧
      Numeral conversion.base (pfGetnum pf arg conversion).num.toNat values := by
  obtain ⟨x, after, values, run, _, _, text, numeral⟩ :=
    store_number_text conversion (pfGetnum pf arg conversion).num buf
  refine ⟨values, ?_, numeral⟩
  rw [← text]
  exact congrArg (Option.map _) run

end

/-- The loop of `atoi` over digits. -/
def atoiDigits (val : BitVec 32) : List Char → BitVec 32
  | [] => val
  | c :: s => match "0123456789".toList.idxOf? c with
    | none => val
    | some digit => atoiDigits (val * 10 + digit) s

def atoi (s : List Char) : BitVec 32 :=
  match s.dropWhile (fun c => c = ' ' ∨ c = '\t') with
  | '-' :: s => -atoiDigits 0 s
  | '+' :: s => atoiDigits 0 s
  | s => atoiDigits 0 s

/-- The loop takes over further digits. -/
theorem atoi_digits {values : List Nat} (small : ∀ value ∈ values, value < 10) (before : List Nat) :
    atoiDigits (BitVec.ofNat 32 (Nat.ofDigits 10 before)) (values.map digit) =
      BitVec.ofNat 32 (Nat.ofDigits 10 (values.reverse ++ before)) := by
  induction values generalizing before with
  | nil => rfl
  | cons value rest ih =>
    have here : ∀ value < 10, "0123456789".toList.idxOf? (digit value) = some value := by decide
    have next := ih (fun other member => small other (List.mem_cons_of_mem _ member))
      (value :: before)
    rw [List.map_cons, atoiDigits, here value (small value List.mem_cons_self), List.reverse_cons,
      List.append_assoc, List.singleton_append, ← next, Nat.ofDigits_cons]
    simp [BitVec.ofNat_add, BitVec.ofNat_mul, BitVec.mul_comm, BitVec.add_comm]

theorem atoi_of_digits {values : List Nat} (small : ∀ value ∈ values, value < 10) :
    atoi (values.map digit) = atoiDigits 0 (values.map digit) := by
  cases values with
  | nil => rfl
  | cons value rest =>
    have below := small value List.mem_cons_self
    interval_cases value <;> rfl

theorem atoi_skips (spaces : Nat) (s : List Char) :
    atoi (List.replicate spaces ' ' ++ s) = atoi s := by
  induction spaces with
  | zero => rfl
  | succ spaces ih => exact ih

/-- Digits after zeros are read back, with and without a sign. -/
theorem atoi_number {values : List Nat} {num : BitVec 64} (numeral : Numeral 10 num.toNat values)
    (sign : Bool) (zeros : Nat) :
    atoi ((if sign then ['-'] else []) ++ (List.replicate zeros '0' ++ values.map digit)) =
      if sign then -num.setWidth 32 else num.setWidth 32 := by
  have text : List.replicate zeros '0' ++ values.map digit =
      (List.replicate zeros 0 ++ values).map digit := by
    simp [digit]
  have below : ∀ value ∈ List.replicate zeros 0 ++ values, value < 10 := by
    simp only [List.mem_append, List.mem_replicate]
    rintro value (⟨_, rfl⟩ | member)
    · decide
    · exact numeral.small value member
  have read := atoi_digits below []
  rw [List.append_nil, List.reverse_append, List.reverse_replicate,
    Nat.ofDigits_append_replicate_zero, numeral.denotes, BitVec.ofNat_toNat] at read
  rw [text]
  cases sign
  · exact (atoi_of_digits below).trans read
  · exact congrArg Neg.neg read

attribute [local simp] pfPrintsigned pfPrintstuff pfSetbase pfGetnum Conversion.base

/-- What `%d` prints with any field width, padded with spaces or zeros, is read back. -/
theorem atoi_of_printed (n : BitVec 32) (spacing : Nat) (zero : Bool) (buf : Nat → Char) :
    ∃ text, printInteger { spacing := spacing, fillchar := if zero then '0' else ' ' } n .d buf =
      some text ∧ atoi text = n := by
  have extended : (n.signExtend 64).setWidth 32 = n := by
    ext index below
    rw [BitVec.getElem_setWidth, BitVec.getLsbD_signExtend]
    simp [below, Nat.lt_trans below]
  obtain ⟨values, printed, numeral⟩ := print_integer_text
    { spacing := spacing, fillchar := if zero then '0' else ' ' } n .d buf
  refine ⟨_, printed, ?_⟩
  have read := atoi_number numeral (decide ((n.signExtend 64).toInt < 0))
  by_cases negative : (n.signExtend 64).toInt < 0
  · simp [negative, extended, BitVec.setWidth_neg_of_le] at read
    cases zero
    · simpa [negative, atoi_skips] using read 0
    · simpa [negative] using read _
  · simp [negative, extended] at read
    cases zero
    · simpa [negative, atoi_skips] using read 0
    · simpa [negative] using read _

end Os161.Kern
