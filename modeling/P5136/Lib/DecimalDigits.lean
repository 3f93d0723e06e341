import Mathlib.Data.Nat.Digits.Defs

/-!
# Digit texts

The number that a text of decimal digits stands for, its bounds by the length of the text, and how it splits where the text does; and
the unsigned numbers below a limit as their parser reads them, and as they are printed. What is printed is read back.
-/

namespace DecimalDigits

open List

/-- The value of a digit. -/
def digitValue (c : Char) : Nat := c.toNat - '0'.toNat

/-- The number that a text of digits stands for. -/
def digitsValue (digits : List Char) : Nat := Nat.ofDigits 10 (digits.reverse.map digitValue)

/-- A text of digits only. -/
def AllDigits (digits : List Char) : Prop := ∀ c ∈ digits, c.isDigit = true

instance (digits : List Char) : Decidable (AllDigits digits) := decidableBAll _ digits

@[simp] theorem digitsValue_nil : digitsValue [] = 0 := rfl

theorem digitValue_lt {c : Char} (h : c.isDigit = true) : digitValue c < 10 := by
  rw [Char.isDigit_iff_toNat] at h
  have h9 : '9'.toNat = '0'.toNat + 9 := rfl
  unfold digitValue
  omega

theorem digitValue_eq_zero_iff {c : Char} (h : c.isDigit = true) : digitValue c = 0 ↔ c = '0' := by
  rw [Char.isDigit_iff_toNat] at h
  unfold digitValue
  constructor
  · intro hzero
    exact Char.toNat_inj.1 (by omega)
  · rintro rfl
    rfl

/-- Texts one after the other. -/
theorem digitsValue_append (front back : List Char) :
    digitsValue (front ++ back) = digitsValue front * 10 ^ back.length + digitsValue back := by
  simp only [digitsValue, reverse_append, map_append, Nat.ofDigits_append, length_map, length_reverse]
  ring

theorem digitsValue_singleton (c : Char) : digitsValue [c] = digitValue c := by
  simp [digitsValue]

theorem digitsValue_cons (c : Char) (digits : List Char) :
    digitsValue (c :: digits) = digitValue c * 10 ^ digits.length + digitsValue digits := by
  have h := digitsValue_append [c] digits
  rwa [digitsValue_singleton] at h

/-- Zeros in front change nothing. -/
theorem digitsValue_dropWhile (digits : List Char) : digitsValue (digits.dropWhile (· == '0')) = digitsValue digits := by
  induction digits with
  | nil => rfl
  | cons c digits ih =>
    rw [dropWhile_cons]
    by_cases hc : c = '0'
    · rw [if_pos (by simpa using hc), ih, hc, digitsValue_cons]
      simp [digitValue]
    · rw [if_neg (by simpa using hc)]

/-- Zeros behind multiply by powers of ten. -/
theorem digitsValue_append_zeros (digits : List Char) (n : Nat) :
    digitsValue (digits ++ replicate n '0') = digitsValue digits * 10 ^ n := by
  have h0 : digitValue '0' = 0 := rfl
  rw [digitsValue_append, length_replicate]
  simp [digitsValue, h0]

/-- A number is below the power of ten of the count of its digits. -/
theorem digitsValue_lt {digits : List Char} (h : AllDigits digits) : digitsValue digits < 10 ^ digits.length := by
  have hlt := Nat.ofDigits_lt_base_pow_length (b := 10) (l := digits.reverse.map digitValue) (by norm_num) (by
    intro x hx
    obtain ⟨c, hc, rfl⟩ := mem_map.1 hx
    exact digitValue_lt (h c (mem_reverse.1 hc)))
  rwa [length_map, length_reverse] at hlt

/-- A number is zero when all its digits are. -/
theorem digitsValue_eq_zero_iff {digits : List Char} (h : AllDigits digits) :
    digitsValue digits = 0 ↔ ∀ c ∈ digits, c = '0' := by
  induction digits with
  | nil => simp
  | cons c digits ih =>
    rw [digitsValue_cons, Nat.add_eq_zero_iff, ih (fun d hd => h d (mem_cons_of_mem _ hd)), Nat.mul_eq_zero,
      digitValue_eq_zero_iff (h c (mem_cons_self ..))]
    simp

/-- A number whose first digit is not zero is at least the power of ten of the digits after it. -/
theorem le_digitsValue {c : Char} (digits : List Char) (hc : c.isDigit = true) (hne : c ≠ '0') :
    10 ^ digits.length ≤ digitsValue (c :: digits) := by
  have hpos : digitValue c ≠ 0 := fun hzero => hne ((digitValue_eq_zero_iff hc).1 hzero)
  rw [digitsValue_cons]
  have := Nat.le_mul_of_pos_left (10 ^ digits.length) (Nat.pos_of_ne_zero hpos)
  omega

/-- Cutting a text divides its number by a power of ten. -/
theorem digitsValue_div_mod (front : List Char) {back : List Char} (h : AllDigits back) :
    digitsValue (front ++ back) / 10 ^ back.length = digitsValue front ∧
      digitsValue (front ++ back) % 10 ^ back.length = digitsValue back := by
  have hlt := digitsValue_lt h
  have hpos : 0 < 10 ^ back.length := by positivity
  rw [digitsValue_append]
  refine (Nat.div_mod_unique hpos).2 ⟨?_, hlt⟩
  ring

/-! ## Unsigned numbers -/

/-- The number below a limit that a text stands for: a plus sign or none, and digits. -/
def parseUnsigned (limit : Nat) (text : List Char) : Option Nat :=
  let digits := if text.head? = some '+' then text.tail else text
  if digits ≠ [] ∧ AllDigits digits ∧ digitsValue digits < limit then some (digitsValue digits) else none

/-- The value of digits as the printer's inverse computes it. -/
theorem ofDigitChars_eq_digitsValue (digits : List Char) : Nat.ofDigitChars 10 digits 0 = digitsValue digits := by
  induction digits with
  | nil => rfl
  | cons c digits ih =>
    rw [Nat.ofDigitChars_cons, Nat.ofDigitChars_eq_ofDigitChars_zero, ih, digitsValue_cons, digitValue, Nat.mul_zero,
      Nat.zero_add, Nat.mul_comm]

/-- What is printed is read back. -/
theorem parseUnsigned_repr {limit n : Nat} (h : n < limit) : parseUnsigned limit n.repr.toList = some n := by
  have hdigits : AllDigits (Nat.toDigits 10 n) := fun c hc => Nat.isDigit_of_mem_toDigits (by decide) (by decide) hc
  have hvalue : digitsValue (Nat.toDigits 10 n) = n := by
    rw [← ofDigitChars_eq_digitsValue]
    exact Nat.ofDigitChars_ten_toDigits
  have hne : Nat.toDigits 10 n ≠ [] := Nat.toDigits_ne_nil
  have hhead : (Nat.toDigits 10 n).head? ≠ some '+' := by
    intro hplus
    have hdigit := hdigits '+' (mem_of_mem_head? hplus)
    exact absurd hdigit (by decide)
  rw [Nat.toList_repr, parseUnsigned, if_neg hhead, if_pos ⟨hne, hdigits, by rw [hvalue]; exact h⟩, hvalue]

end DecimalDigits
