import Mathlib.Algebra.Order.Field.Power
import Mathlib.Data.Rat.Floor
import Mathlib.Tactic.Positivity
import P5136.Lib.HalfEven

/-!
# Binary floating-point numbers of 32 bits

A number by its bit pattern: the sign, the biased exponent and the fraction. The normal numbers have a significand of 24 bits, and
`NearestEven` says which of them a rational number is rounded to.
-/

/-- A binary floating-point number of 32 bits, by its bit pattern. -/
structure Binary32 where
  ofBits ::
  toBits : UInt32
deriving DecidableEq

namespace Binary32

/-- The pattern of a sign, a biased exponent and a fraction. -/
def assemble (negative : Bool) (biasedExponent fraction : UInt32) : Binary32 :=
  .ofBits ((if negative then (1 : UInt32) <<< 31 else 0) ||| (biasedExponent <<< 23) ||| fraction)

/-- The sign bit. -/
def negative (f : Binary32) : Bool := decide (2 ^ 31 ≤ f.toBits.toNat)

/-- The exponent with its bias of 127. -/
def biasedExponent (f : Binary32) : Nat := f.toBits.toNat / 2 ^ 23 % 2 ^ 8

/-- The bits below the exponent. -/
def fraction (f : Binary32) : Nat := f.toBits.toNat % 2 ^ 23

/-- The significand of a normal number, of 24 bits. -/
def significand (f : Binary32) : Nat := 2 ^ 23 + f.fraction

/-- The number is normal. -/
def IsNormal (f : Binary32) : Prop := 1 ≤ f.biasedExponent ∧ f.biasedExponent ≤ 254

/-- The magnitude of a normal number. -/
def magnitude (f : Binary32) : ℚ := f.significand * 2 ^ ((f.biasedExponent : ℤ) - 150)

/-- No normal number is nearer to `x` than `f`, and where one of another magnitude is as near, the significand of `f` is even. -/
def NearestEven (x : ℚ) (f : Binary32) : Prop :=
  ∀ g : Binary32, g.IsNormal → |x - f.magnitude| ≤ |x - g.magnitude| ∧
    (|x - f.magnitude| = |x - g.magnitude| → g.magnitude = f.magnitude ∨ f.significand % 2 = 0)

theorem significand_lt (f : Binary32) : f.significand < 2 ^ 24 := by
  have h : f.toBits.toNat % 2 ^ 23 < 2 ^ 23 := Nat.mod_lt _ (by decide)
  unfold significand fraction
  omega

/-! ## Patterns -/

/-- The bits of a pattern do not overlap. -/
theorem toNat_assemble (negative : Bool) {biasedExponent fraction : UInt32} (he : biasedExponent.toNat < 2 ^ 8)
    (hf : fraction.toNat < 2 ^ 23) : (assemble negative biasedExponent fraction).toBits.toNat =
      2 ^ 31 * negative.toNat + (2 ^ 23 * biasedExponent.toNat + fraction.toNat) := by
  have hshift : (biasedExponent <<< 23).toNat = 2 ^ 23 * biasedExponent.toNat := by
    rw [UInt32.toNat_shiftLeft, Nat.shiftLeft_eq]
    change biasedExponent.toNat * 2 ^ 23 % 2 ^ 32 = _
    omega
  have hsign : (if negative then (1 : UInt32) <<< 31 else 0).toNat = 2 ^ 31 * negative.toNat := by
    cases negative <;> rfl
  rw [assemble, UInt32.toNat_or, UInt32.toNat_or, hshift, hsign, Nat.or_assoc, ← Nat.two_pow_add_eq_or_of_lt hf,
    ← Nat.two_pow_add_eq_or_of_lt (show 2 ^ 23 * biasedExponent.toNat + fraction.toNat < 2 ^ 31 by omega)]

theorem assemble_fields (negative : Bool) {biasedExponent fraction : UInt32} (he : biasedExponent.toNat < 2 ^ 8)
    (hf : fraction.toNat < 2 ^ 23) :
    (assemble negative biasedExponent fraction).negative = negative ∧
      (assemble negative biasedExponent fraction).biasedExponent = biasedExponent.toNat ∧
      (assemble negative biasedExponent fraction).fraction = fraction.toNat := by
  have hbits := toNat_assemble negative he hf
  refine ⟨?_, ?_, ?_⟩
  · rw [Binary32.negative, hbits]
    cases negative
    · exact decide_eq_false (by simp only [Bool.toNat_false]; omega)
    · exact decide_eq_true (by simp only [Bool.toNat_true]; omega)
  · rw [Binary32.biasedExponent, hbits]
    omega
  · rw [Binary32.fraction, hbits]
    omega

/-! ## Rounding -/

/-- The numbers of one binade and above are multiples of one unit. -/
theorem exists_multiple {g : Binary32} {e : ℤ} (h : e ≤ (g.biasedExponent : ℤ) - 127) :
    ∃ n : ℕ, g.magnitude = n * (2 : ℚ) ^ (e - 23) := by
  obtain ⟨k, hk⟩ := Int.le.dest h
  refine ⟨g.significand * 2 ^ k, ?_⟩
  rw [magnitude, show (g.biasedExponent : ℤ) - 150 = (k : ℤ) + (e - 23) by omega, zpow_add₀ (by norm_num), zpow_natCast]
  push_cast
  ring

/-- The numbers below a binade are below its least number. -/
theorem magnitude_lt {g : Binary32} {e : ℤ} (h : (g.biasedExponent : ℤ) - 127 < e) : g.magnitude < 2 ^ e := by
  have hlt : (g.significand : ℚ) < 2 ^ (24 : ℕ) := by exact_mod_cast g.significand_lt
  calc g.magnitude < 2 ^ (24 : ℕ) * (2 : ℚ) ^ ((g.biasedExponent : ℤ) - 150) :=
        mul_lt_mul_of_pos_right hlt (by positivity)
    _ = (2 : ℚ) ^ ((24 : ℤ) + ((g.biasedExponent : ℤ) - 150)) := by
        rw [zpow_add₀ (by norm_num : (2 : ℚ) ≠ 0)]
        norm_num
    _ ≤ 2 ^ e := zpow_le_zpow_right₀ (by norm_num) (by omega)

/-- A number of the binade of `x` is rounded to by rounding `x`, in units of that binade, half to even. -/
theorem nearestEven_of_halfEven {x : ℚ} {f : Binary32} {e : ℤ} (hx : 2 ^ e ≤ x)
    (hvalue : f.magnitude = halfEven (x * 2 ^ (23 - e)) * 2 ^ (e - 23))
    (heven : halfEven (x * 2 ^ (23 - e)) % 2 = 0 → f.significand % 2 = 0) : NearestEven x f := by
  have hunit : (0 : ℚ) < 2 ^ (e - 23) := by positivity
  have hscaled : x = x * 2 ^ (23 - e) * 2 ^ (e - 23) := by
    rw [mul_assoc, ← zpow_add₀ (by norm_num), show (23 - e) + (e - 23) = 0 by omega, zpow_zero, mul_one]
  have hpos : 0 ≤ x * 2 ^ (23 - e) := mul_nonneg (le_trans (by positivity) hx) (by positivity)
  generalize x * 2 ^ (23 - e) = r at hscaled hpos hvalue heven
  have hdist : ∀ n : ℕ, |x - n * 2 ^ (e - 23)| = |r - n| * 2 ^ (e - 23) := by
    intro n
    rw [hscaled, ← sub_mul, abs_mul, abs_of_pos hunit]
  intro g hg
  rw [hvalue, hdist]
  rcases Int.lt_or_le ((g.biasedExponent : ℤ) - 127) e with hlow | hhigh
  · -- below the binade of `x`, whose least number is nearer
    have hlt := magnitude_lt hlow
    have hleast : (2 : ℚ) ^ e = (2 ^ 23 : ℕ) * 2 ^ (e - 23) := by
      rw [show e = 23 + (e - 23) by omega, zpow_add₀ (by norm_num), show 23 + (e - 23) - 23 = e - 23 by omega]
      norm_num
    have hnear := mul_le_mul_of_nonneg_right (halfEven_nearest hpos (2 ^ 23)).1 hunit.le
    have hcloser : |x - 2 ^ e| < |x - g.magnitude| := by
      rw [abs_of_nonneg (by linarith), abs_of_nonneg (by linarith)]
      linarith
    rw [hleast, hdist] at hcloser
    exact ⟨le_of_lt (lt_of_le_of_lt hnear hcloser), fun htie => absurd htie (ne_of_lt (lt_of_le_of_lt hnear hcloser))⟩
  · obtain ⟨n, hn⟩ := exists_multiple hhigh
    obtain ⟨hnear, htie⟩ := halfEven_nearest hpos n
    rw [hn, hdist]
    refine ⟨mul_le_mul_of_nonneg_right hnear hunit.le, fun heq => ?_⟩
    rcases htie (mul_right_cancel₀ hunit.ne' heq) with hsame | hround
    · exact .inl (by rw [hsame])
    · exact .inr (heven hround)

end Binary32
