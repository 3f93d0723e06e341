import Mathlib.Data.Nat.Size
import P5136.Core.DotNetDecimal
import P5136.Lib.Binary32
import P5136.Lib.Fault

/-!
# From the decimal to the 32-bit float

`to_f32` of the 96-bit decimal (`dotnet_decimal.rs`): the binary exponent from the lengths of the mantissa and of the power of
ten, the significand as a quotient found by bisection, and the rounding by twice the remainder. Every `expect` and assertion of
it is a panic here.
-/

namespace P5136
namespace U256

/-- `checked_shift_left`: one doubling after the other. -/
def checkedShiftLeft (self : U256) : Nat → Option U256
  | 0 => some self
  | shift + 1 => do
    let next ← self.checkedMulU64 2
    checkedShiftLeft next shift

/-- `leading_zeros` of a limb. -/
def leadingZeros (limb : UInt64) : Nat := 64 - limb.toNat.size

def bitLength (self : U256) : Nat :=
  match (List.finRange 4).reverse.find? (fun index => self.limb index ≠ 0) with
  | some index => index * 64 + (64 - leadingZeros (self.limb index))
  | none => 0

/-- The loop of `div_rem_u32_quotient`. -/
def quotientLoop (self divisor : U256) (lower upper : Nat) : Except (Fault Empty) Nat :=
  if lower + 1 < upper then do
    let middle := lower + (upper - lower) / 2
    let product ← Fault.expect (divisor.checkedMulU64 (UInt64.ofNat middle))
      "bounded decimal-to-f32 quotient fits U256"
    if product.magnitudeCmp self = .gt then quotientLoop self divisor lower middle
    else quotientLoop self divisor middle upper
  else pure lower
termination_by upper - lower

def divRemU32Quotient (self divisor : U256) : Except (Fault Empty) (Nat × U256) := do
  let lower ← quotientLoop self divisor 0 (1 <<< 25)
  let product ← Fault.expect (divisor.checkedMulU64 (UInt64.ofNat lower)) "bounded decimal-to-f32 quotient fits U256"
  let remainder ← Fault.expect (self.checkedSub product) "the quotient product does not exceed the dividend"
  pure (lower, remainder)

end U256

namespace DotNetDecimal

/-- `pow` of 128 bits; there is none when it overflows. -/
def checkedPow (base exponent : Nat) : Option Nat := if base ^ exponent < 2 ^ 128 then some (base ^ exponent) else none

/-- The binary exponent of the quotient: the difference of the lengths, or one less. -/
def quotientExponent (numerator denominator : U256) : Except (Fault Empty) Int := do
  let exponent : Int := (numerator.bitLength : Int) - denominator.bitLength
  let belowPower ←
    if 0 ≤ exponent then do
      let shifted ← Fault.expect (denominator.checkedShiftLeft exponent.toNat) "decimal exponent comparison fits U256"
      pure (numerator.magnitudeCmp shifted)
    else do
      let shifted ← Fault.expect (numerator.checkedShiftLeft (-exponent).toNat) "decimal exponent comparison fits U256"
      pure (shifted.magnitudeCmp denominator)
  pure (if belowPower = .lt then exponent - 1 else exponent)

/-- The numerator and the denominator whose quotient is the significand. -/
def scaledParts (numerator denominator : U256) (exponent : Int) : Except (Fault Empty) (U256 × U256) :=
  let significandShift := 23 - exponent
  if 0 ≤ significandShift then do
    let scaled ← Fault.expect (numerator.checkedShiftLeft significandShift.toNat) "decimal-to-f32 numerator fits U256"
    pure (scaled, denominator)
  else do
    let scaled ← Fault.expect (denominator.checkedShiftLeft (-significandShift).toNat)
      "decimal-to-f32 denominator fits U256"
    pure (numerator, scaled)

/-- The significand, rounded by twice the remainder. -/
def roundedSignificand (scaledNumerator scaledDenominator : U256) : Except (Fault Empty) Nat := do
  let parts ← scaledNumerator.divRemU32Quotient scaledDenominator
  let doubledRemainder ← Fault.expect (parts.2.checkedMulU64 2) "decimal-to-f32 remainder fits U256"
  pure (if doubledRemainder.magnitudeCmp scaledDenominator = .gt ∨
      doubledRemainder.limbs = scaledDenominator.limbs ∧ parts.1 % 2 ≠ 0 then parts.1 + 1 else parts.1)

/-- The pattern of a significand of 24 bits and its exponent. -/
def patternOf (negative : Bool) (significand : Nat) (exponent : Int) : Except (Fault Empty) Binary32 := do
  Fault.assert (1 <<< 23 ≤ significand ∧ significand < 1 <<< 24) "assertion failed"
  let biasedExponent := UInt32.ofInt (exponent + 127)
  Fault.assert (1 ≤ biasedExponent ∧ biasedExponent < 0xff) "assertion failed"
  pure (.assemble negative biasedExponent (UInt32.ofNat (significand - 1 <<< 23)))

/-- The pattern after a carry out of the significand. -/
def assembleFloat (negative : Bool) (significand : Nat) (exponent : Int) : Except (Fault Empty) Binary32 :=
  if significand = 1 <<< 24 then patternOf negative (significand >>> 1) (exponent + 1)
  else patternOf negative significand exponent

def toF32 (self : DotNetDecimal) : Except (Fault Empty) Binary32 :=
  if self.mantissa = 0 then pure (if self.negative then .ofBits 0x80000000 else .ofBits 0)
  else do
    let numerator := U256.fromU128 self.mantissa
    let power ← Fault.expect (checkedPow 10 self.scale) "attempt to multiply with overflow"
    let denominator := U256.fromU128 power
    let exponent ← quotientExponent numerator denominator
    let parts ← scaledParts numerator denominator exponent
    let significand ← roundedSignificand parts.1 parts.2
    assembleFloat self.negative significand exponent

end DotNetDecimal

/-! ## Shifts and lengths -/

namespace U256

/-- A shift that stays below 2^256 is exact. -/
theorem checkedShiftLeft_spec (self : U256) (shift : Nat) (h : self.toNat * 2 ^ shift < 2 ^ 256) :
    ∃ shifted, self.checkedShiftLeft shift = some shifted ∧ shifted.toNat = self.toNat * 2 ^ shift := by
  induction shift generalizing self with
  | zero => exact ⟨self, rfl, by rw [pow_zero, Nat.mul_one]⟩
  | succ shift ih =>
    have hpow : self.toNat * 2 ^ (shift + 1) = self.toNat * 2 * 2 ^ shift := by ring
    have hone : 1 ≤ 2 ^ shift := Nat.one_le_pow _ _ (by norm_num)
    have htwo : self.toNat * 2 ≤ self.toNat * 2 * 2 ^ shift := Nat.le_mul_of_pos_right _ hone
    obtain ⟨next, hnext, hnextvalue⟩ := checkedMulU64_spec self 2 (by
      change self.toNat * 2 < 2 ^ 256
      omega)
    change next.toNat = self.toNat * 2 at hnextvalue
    obtain ⟨shifted, hshifted, hvalue⟩ := ih next (by rw [hnextvalue]; omega)
    refine ⟨shifted, ?_, by rw [hvalue, hnextvalue, hpow]⟩
    simp only [checkedShiftLeft, hnext, Option.bind_eq_bind, Option.bind_some, hshifted]

/-- The length of a number is the place of its highest limb and the length of that limb. -/
theorem size_add {low high k : Nat} (hlow : low < 2 ^ k) (hhigh : high ≠ 0) : (low + 2 ^ k * high).size = k + high.size := by
  have hpos : 0 < high.size := Nat.size_pos.2 (Nat.pos_of_ne_zero hhigh)
  have hlt := Nat.lt_size_self high
  have hge : 2 ^ (high.size - 1) ≤ high := Nat.lt_size.1 (by omega)
  refine Nat.le_antisymm (Nat.size_le.2 ?_) ?_
  · calc low + 2 ^ k * high < 2 ^ k + 2 ^ k * high := by omega
      _ = 2 ^ k * (high + 1) := by ring
      _ ≤ 2 ^ k * 2 ^ high.size := Nat.mul_le_mul_left _ hlt
      _ = 2 ^ (k + high.size) := (pow_add ..).symm
  · have hbound : 2 ^ (k + (high.size - 1)) ≤ low + 2 ^ k * high := by
      rw [pow_add]
      exact le_trans (Nat.mul_le_mul_left _ hge) (Nat.le_add_left ..)
    have hlast := Nat.lt_size.2 hbound
    omega

/-- The bits of a limb below its leading zeros. -/
theorem sub_leadingZeros (limb : UInt64) : 64 - leadingZeros limb = limb.toNat.size := by
  have h : limb.toNat.size ≤ 64 := Nat.size_le.2 limb.toNat_lt
  unfold leadingZeros
  omega

/-- The length in bits is the length of the number. -/
theorem bitLength_eq (self : U256) : self.bitLength = self.toNat.size := by
  have h0 := (self.limb 0).toNat_lt
  have h1 := (self.limb 1).toNat_lt
  have h2 := (self.limb 2).toNat_lt
  have hne : ∀ {limb : UInt64}, limb ≠ 0 → limb.toNat ≠ 0 := fun h heq => h (UInt64.toNat_inj.1 heq)
  have hindices : (List.finRange 4).reverse = [3, 2, 1, 0] := by decide
  rw [toNat_eq_limbs, bitLength, hindices]
  by_cases hthree : self.limb 3 = 0
  · by_cases htwo : self.limb 2 = 0
    · by_cases hone : self.limb 1 = 0
      · by_cases hzero : self.limb 0 = 0
        · simp [hthree, htwo, hone, hzero]
        · simp [hthree, htwo, hone, hzero, sub_leadingZeros]
      · have hsize := size_add h0 (hne hone)
        simpa [hthree, htwo, hone, sub_leadingZeros] using hsize.symm
    · have hsize := size_add (show (self.limb 0).toNat + 2 ^ 64 * (self.limb 1).toNat < 2 ^ 128 by omega) (hne htwo)
      have hsum : (self.limb 0).toNat + 2 ^ 64 * (self.limb 1).toNat + 2 ^ 128 * (self.limb 2).toNat =
          (self.limb 0).toNat + 2 ^ 64 * ((self.limb 1).toNat + 2 ^ 64 * (self.limb 2).toNat) := by ring
      rw [hsum] at hsize
      simpa [hthree, htwo, sub_leadingZeros] using hsize.symm
  · have hsize := size_add (show (self.limb 0).toNat + 2 ^ 64 * ((self.limb 1).toNat + 2 ^ 64 * (self.limb 2).toNat) <
      2 ^ 192 by omega) (hne hthree)
    have hsum : (self.limb 0).toNat + 2 ^ 64 * ((self.limb 1).toNat + 2 ^ 64 * (self.limb 2).toNat) +
        2 ^ 192 * (self.limb 3).toNat = (self.limb 0).toNat + 2 ^ 64 * ((self.limb 1).toNat + 2 ^ 64 *
          ((self.limb 2).toNat + 2 ^ 64 * (self.limb 3).toNat)) := by ring
    rw [hsum] at hsize
    simpa [hthree, sub_leadingZeros] using hsize.symm

/-! ## The quotient by bisection -/

/-- The bisection keeps the quotient between its bounds, and no product overflows. -/
theorem quotientLoop_spec {self divisor : U256} {lower upper : Nat} (hlower : divisor.toNat * lower ≤ self.toNat)
    (hupper : self.toNat < divisor.toNat * upper) (hbound : upper ≤ 2 ^ 25) (hfits : divisor.toNat * 2 ^ 25 < 2 ^ 256) :
    quotientLoop self divisor lower upper = .ok (self.toNat / divisor.toNat) := by
  induction lower, upper using quotientLoop.induct with
  | case1 lower upper hlt middle ihlow ihhigh =>
    have hmiddle : middle < upper := by omega
    have hvalue : (UInt64.ofNat middle).toNat = middle := by
      rw [UInt64.toNat_ofNat']
      omega
    have hmul : divisor.toNat * middle ≤ divisor.toNat * 2 ^ 25 := Nat.mul_le_mul_left _ (by omega)
    obtain ⟨product, hproduct, hproductvalue⟩ := checkedMulU64_spec divisor (UInt64.ofNat middle) (by rw [hvalue]; omega)
    rw [hvalue] at hproductvalue
    rw [quotientLoop, if_pos hlt]
    change (Fault.expect (divisor.checkedMulU64 (UInt64.ofNat middle)) _ >>= _) = _
    rw [hproduct, Fault.expect_some]
    change (if product.magnitudeCmp self = .gt then _ else _) = _
    have hgreater : product.magnitudeCmp self = .gt ↔ self.toNat < divisor.toNat * middle := by
      rw [magnitudeCmp_eq, Nat.compare_eq_gt, hproductvalue]
    by_cases hlow : self.toNat < divisor.toNat * middle
    · rw [if_pos (hgreater.2 hlow)]
      exact ihlow hlower hlow (by omega)
    · rw [if_neg (mt hgreater.1 hlow)]
      exact ihhigh (by omega) hupper hbound
  | case2 lower upper hge =>
    have hnext : divisor.toNat * upper ≤ divisor.toNat * (lower + 1) := Nat.mul_le_mul_left _ (by omega)
    have hquotient : self.toNat / divisor.toNat = lower :=
      Nat.div_eq_of_lt_le (by rw [Nat.mul_comm]; exact hlower) (by rw [Nat.mul_comm]; omega)
    rw [quotientLoop, if_neg hge, hquotient]
    rfl

/-- The quotient is the exact floor, with its remainder. -/
theorem divRemU32Quotient_spec {self divisor : U256} (hquotient : self.toNat < divisor.toNat * 2 ^ 25)
    (hfits : divisor.toNat * 2 ^ 25 < 2 ^ 256) :
    ∃ remainder, self.divRemU32Quotient divisor = .ok (self.toNat / divisor.toNat, remainder) ∧
      remainder.toNat = self.toNat % divisor.toNat := by
  have hloop := quotientLoop_spec (show divisor.toNat * 0 ≤ self.toNat by simp) hquotient (Nat.le_refl _) hfits
  have hlt : self.toNat / divisor.toNat < 2 ^ 25 := Nat.div_lt_of_lt_mul hquotient
  have hle : divisor.toNat * (self.toNat / divisor.toNat) ≤ self.toNat := Nat.mul_div_le ..
  have hself := self.toNat_lt
  have hvalue : (UInt64.ofNat (self.toNat / divisor.toNat)).toNat = self.toNat / divisor.toNat := by
    rw [UInt64.toNat_ofNat', Nat.mod_eq_of_lt (lt_trans hlt (by norm_num))]
  obtain ⟨product, hproduct, hproductvalue⟩ := checkedMulU64_spec divisor (UInt64.ofNat (self.toNat / divisor.toNat))
    (by rw [hvalue]; omega)
  rw [hvalue] at hproductvalue
  obtain ⟨remainder, hremainder, hremaindervalue⟩ := checkedSub_spec self product (by rw [hproductvalue]; exact hle)
  refine ⟨remainder, ?_, ?_⟩
  · rw [divRemU32Quotient, show 1 <<< 25 = 2 ^ 25 from rfl, hloop]
    change (Fault.expect (divisor.checkedMulU64 _) _ >>= _) = _
    rw [hproduct, Fault.expect_some]
    change (Fault.expect (self.checkedSub product) _ >>= _) = _
    rw [hremainder, Fault.expect_some]
    rfl
  · rw [hremaindervalue, hproductvalue]
    exact Nat.sub_eq_of_eq_add (by rw [Nat.add_comm]; exact (Nat.div_add_mod ..).symm)

end U256

/-! ## The exponent and the scaling -/

namespace DotNetDecimal

/-- A quotient lies in the binade of an exponent. -/
def InBinade (x : ℚ) (exponent : ℤ) : Prop := 2 ^ exponent ≤ x ∧ x < 2 ^ (exponent + 1)

/-- The quotient of two numbers is about two to the difference of their lengths. -/
theorem quotient_size {n d : Nat} (hn : 0 < n) (hd : 0 < d) :
    (2 : ℚ) ^ ((n.size : ℤ) - d.size - 1) ≤ n / d ∧ (n : ℚ) / d < 2 ^ ((n.size : ℤ) - d.size + 1) := by
  have hdpos : (0 : ℚ) < d := by exact_mod_cast hd
  have hnsize := Nat.size_pos.2 hn
  have hdsize := Nat.size_pos.2 hd
  have hnlow : (2 : ℚ) ^ (n.size - 1) ≤ n := by exact_mod_cast Nat.lt_size.1 (show n.size - 1 < n.size by omega)
  have hnhigh : (n : ℚ) < 2 ^ n.size := by exact_mod_cast Nat.lt_size_self n
  have hdlow : (2 : ℚ) ^ (d.size - 1) ≤ d := by exact_mod_cast Nat.lt_size.1 (show d.size - 1 < d.size by omega)
  have hdhigh : (d : ℚ) < 2 ^ d.size := by exact_mod_cast Nat.lt_size_self d
  constructor
  · rw [le_div_iff₀ hdpos]
    calc (2 : ℚ) ^ ((n.size : ℤ) - d.size - 1) * d ≤ 2 ^ ((n.size : ℤ) - d.size - 1) * 2 ^ d.size :=
          mul_le_mul_of_nonneg_left hdhigh.le (by positivity)
      _ = 2 ^ (n.size - 1) := by
          rw [← zpow_natCast, ← zpow_natCast, ← zpow_add₀ (by norm_num)]
          congr 1
          omega
      _ ≤ n := hnlow
  · rw [div_lt_iff₀ hdpos]
    calc (n : ℚ) < 2 ^ n.size := hnhigh
      _ = 2 ^ ((n.size : ℤ) - d.size + 1) * 2 ^ (d.size - 1) := by
          rw [← zpow_natCast, ← zpow_natCast, ← zpow_add₀ (by norm_num)]
          congr 1
          omega
      _ ≤ 2 ^ ((n.size : ℤ) - d.size + 1) * d := mul_le_mul_of_nonneg_left hdlow (by positivity)

/-- The exponent is the one of the binade of the quotient; no comparison overflows. -/
theorem quotientExponent_spec {numerator denominator : U256} (hn : 0 < numerator.toNat) (hd : 0 < denominator.toNat)
    (hnlt : numerator.toNat < 2 ^ 96) (hdlt : denominator.toNat < 2 ^ 94) :
    ∃ exponent, quotientExponent numerator denominator = .ok exponent ∧
      InBinade (numerator.toNat / denominator.toNat) exponent := by
  have hdpos : (0 : ℚ) < denominator.toNat := by exact_mod_cast hd
  obtain ⟨hlow, hhigh⟩ := quotient_size hn hd
  have hnsize : numerator.toNat.size ≤ 96 := Nat.size_le.2 hnlt
  have hdsize : denominator.toNat.size ≤ 94 := Nat.size_le.2 hdlt
  have hnself := Nat.lt_size_self numerator.toNat
  have hdself := Nat.lt_size_self denominator.toNat
  -- what the comparison tells, whichever side was shifted
  have hchoice : ∀ ordering : Ordering,
      (ordering = .lt ↔ (numerator.toNat : ℚ) / denominator.toNat <
        2 ^ ((numerator.toNat.size : ℤ) - denominator.toNat.size)) →
      InBinade (numerator.toNat / denominator.toNat)
        (if ordering = .lt then (numerator.toNat.size : ℤ) - denominator.toNat.size - 1
          else (numerator.toNat.size : ℤ) - denominator.toNat.size) := by
    intro ordering hordering
    by_cases hbelow : ordering = .lt
    · rw [if_pos hbelow]
      refine ⟨hlow, ?_⟩
      rw [Int.sub_add_cancel]
      exact hordering.1 hbelow
    · rw [if_neg hbelow]
      exact ⟨not_lt.1 (mt hordering.2 hbelow), hhigh⟩
  simp only [quotientExponent, U256.bitLength_eq]
  by_cases hnonneg : (0 : ℤ) ≤ (numerator.toNat.size : ℤ) - denominator.toNat.size
  · obtain ⟨k, hk⟩ := Int.eq_ofNat_of_zero_le hnonneg
    have hfits : denominator.toNat * 2 ^ k < 2 ^ numerator.toNat.size := by
      have hsum : numerator.toNat.size = denominator.toNat.size + k := by omega
      rw [hsum, pow_add]
      exact Nat.mul_lt_mul_of_pos_right hdself (by positivity)
    have hwide : 2 ^ numerator.toNat.size ≤ 2 ^ 96 := Nat.pow_le_pow_right (by norm_num) hnsize
    obtain ⟨shifted, hshifted, hvalue⟩ := denominator.checkedShiftLeft_spec k (by omega)
    refine ⟨_, ?_, hchoice (numerator.magnitudeCmp shifted) ?_⟩
    · rw [if_pos hnonneg, hk, Int.toNat_natCast, hshifted]
      rfl
    · rw [U256.magnitudeCmp_eq, Nat.compare_eq_lt, hvalue, hk, div_lt_iff₀ hdpos, zpow_natCast, mul_comm]
      exact_mod_cast Iff.rfl
  · obtain ⟨k, hk⟩ := Int.eq_ofNat_of_zero_le (show (0 : ℤ) ≤ -((numerator.toNat.size : ℤ) - denominator.toNat.size) by omega)
    have hfits : numerator.toNat * 2 ^ k < 2 ^ denominator.toNat.size := by
      have hsum : denominator.toNat.size = numerator.toNat.size + k := by omega
      rw [hsum, pow_add]
      exact Nat.mul_lt_mul_of_pos_right hnself (by positivity)
    have hwide : 2 ^ denominator.toNat.size ≤ 2 ^ 94 := Nat.pow_le_pow_right (by norm_num) hdsize
    obtain ⟨shifted, hshifted, hvalue⟩ := numerator.checkedShiftLeft_spec k (by omega)
    refine ⟨_, ?_, hchoice (shifted.magnitudeCmp denominator) ?_⟩
    · rw [if_neg hnonneg, hk, Int.toNat_natCast, hshifted]
      rfl
    · rw [U256.magnitudeCmp_eq, Nat.compare_eq_lt, hvalue, show (numerator.toNat.size : ℤ) - denominator.toNat.size = -k by omega,
        zpow_neg, zpow_natCast, div_lt_iff₀ hdpos, inv_mul_eq_div, lt_div_iff₀ (by positivity)]
      exact_mod_cast Iff.rfl

/-- The parts whose quotient is the significand. -/
structure Scaled (x : ℚ) (exponent : ℤ) (parts : U256 × U256) : Prop where
  value : (parts.1.toNat : ℚ) / parts.2.toNat = x * 2 ^ (23 - exponent)
  positive : 0 < parts.2.toNat
  small : parts.2.toNat < 2 ^ 94

/-- The quotient is scaled to 24 bits; no shift overflows. -/
theorem scaledParts_spec {numerator denominator : U256} {exponent : ℤ} (hd : 0 < denominator.toNat)
    (hnlt : numerator.toNat < 2 ^ 96) (hdlt : denominator.toNat < 2 ^ 94)
    (hbinade : InBinade (numerator.toNat / denominator.toNat) exponent) :
    ∃ parts, scaledParts numerator denominator exponent = .ok parts ∧
      Scaled (numerator.toNat / denominator.toNat) exponent parts := by
  have hdpos : (0 : ℚ) < denominator.toNat := by exact_mod_cast hd
  obtain ⟨hlow, hhigh⟩ := hbinade
  rw [le_div_iff₀ hdpos] at hlow
  rw [div_lt_iff₀ hdpos] at hhigh
  by_cases hnonneg : 0 ≤ 23 - exponent
  · obtain ⟨k, hk⟩ := Int.eq_ofNat_of_zero_le hnonneg
    have hfits : numerator.toNat * 2 ^ k < 2 ^ 24 * denominator.toNat := by
      have hcast : (numerator.toNat : ℚ) * 2 ^ k < 2 ^ 24 * denominator.toNat :=
        calc (numerator.toNat : ℚ) * 2 ^ k < 2 ^ (exponent + 1) * denominator.toNat * 2 ^ k :=
              mul_lt_mul_of_pos_right hhigh (by positivity)
          _ = 2 ^ (exponent + 1) * 2 ^ k * denominator.toNat := by ring
          _ = 2 ^ 24 * denominator.toNat := by
              rw [← zpow_natCast, ← zpow_natCast, ← zpow_add₀ (by norm_num)]
              congr 2
              omega
      exact_mod_cast hcast
    obtain ⟨shifted, hshifted, hvalue⟩ := numerator.checkedShiftLeft_spec k (by omega)
    refine ⟨(shifted, denominator), ?_, ?_, hd, hdlt⟩
    · simp only [scaledParts, hk, Int.toNat_natCast, hshifted]
      rfl
    · change (shifted.toNat : ℚ) / denominator.toNat = _
      rw [hvalue, hk, zpow_natCast]
      push_cast
      ring
  · obtain ⟨k, hk⟩ := Int.eq_ofNat_of_zero_le (show (0 : ℤ) ≤ -(23 - exponent) by omega)
    have hexponent : exponent = 23 + k := by omega
    have hfits : denominator.toNat * 2 ^ k * 2 ^ 23 ≤ numerator.toNat := by
      have hcast : (denominator.toNat : ℚ) * 2 ^ k * 2 ^ 23 ≤ numerator.toNat :=
        calc (denominator.toNat : ℚ) * 2 ^ k * 2 ^ 23 = 2 ^ exponent * denominator.toNat := by
              rw [hexponent, zpow_add₀ (by norm_num), zpow_natCast]
              norm_num
              ring
          _ ≤ numerator.toNat := hlow
      exact_mod_cast hcast
    obtain ⟨shifted, hshifted, hvalue⟩ := denominator.checkedShiftLeft_spec k (by omega)
    have hpositive : 0 < denominator.toNat * 2 ^ k := Nat.mul_pos hd (by positivity)
    refine ⟨(numerator, shifted), ?_, ?_, by rw [hvalue]; exact hpositive, by rw [hvalue]; omega⟩
    · simp only [scaledParts, if_neg hnonneg, hk, Int.toNat_natCast, hshifted]
      rfl
    · change (numerator.toNat : ℚ) / shifted.toNat = _
      rw [hvalue, show 23 - exponent = -(k : ℤ) by omega, zpow_neg, zpow_natCast]
      push_cast
      rw [← div_div, div_eq_mul_inv _ ((2 : ℚ) ^ k)]

/-! ## The rounding -/

/-- The significand is the quotient rounded half to even; neither the bisection nor the doubling overflows. -/
theorem roundedSignificand_spec {scaledNumerator scaledDenominator : U256} (hpositive : 0 < scaledDenominator.toNat)
    (hsmall : scaledDenominator.toNat < 2 ^ 94) (hquotient : scaledNumerator.toNat < scaledDenominator.toNat * 2 ^ 25) :
    roundedSignificand scaledNumerator scaledDenominator =
      .ok (divHalfEven scaledNumerator.toNat scaledDenominator.toNat) := by
  obtain ⟨remainder, hparts, hremainder⟩ := U256.divRemU32Quotient_spec hquotient (by omega)
  have hless : scaledNumerator.toNat % scaledDenominator.toNat < scaledDenominator.toNat := Nat.mod_lt _ hpositive
  obtain ⟨doubled, hdoubled, hvalue⟩ := U256.checkedMulU64_spec remainder 2 (by
    change remainder.toNat * 2 < 2 ^ 256
    omega)
  change doubled.toNat = remainder.toNat * 2 at hvalue
  have hgreater : doubled.magnitudeCmp scaledDenominator = .gt ↔
      scaledDenominator.toNat < 2 * (scaledNumerator.toNat % scaledDenominator.toNat) := by
    rw [U256.magnitudeCmp_eq, Nat.compare_eq_gt, hvalue, hremainder, Nat.mul_comm]
  have hequal : doubled.limbs = scaledDenominator.limbs ↔
      2 * (scaledNumerator.toNat % scaledDenominator.toNat) = scaledDenominator.toNat := by
    rw [Nat.mul_comm, ← hremainder, ← hvalue]
    refine ⟨fun h => congrArg Limbs.value h, fun h => Limbs.value_inj ?_ h⟩
    rw [doubled.length_limbs, scaledDenominator.length_limbs]
  have hup : (doubled.magnitudeCmp scaledDenominator = .gt ∨ doubled.limbs = scaledDenominator.limbs ∧
      scaledNumerator.toNat / scaledDenominator.toNat % 2 ≠ 0) ↔
      ¬(2 * (scaledNumerator.toNat % scaledDenominator.toNat) < scaledDenominator.toNat ∨
        2 * (scaledNumerator.toNat % scaledDenominator.toNat) = scaledDenominator.toNat ∧
          scaledNumerator.toNat / scaledDenominator.toNat % 2 = 0) := by
    rw [hgreater, hequal]
    omega
  rw [roundedSignificand, hparts]
  change (Fault.expect (remainder.checkedMulU64 2) _ >>= _) = _
  rw [hdoubled, Fault.expect_some]
  refine congrArg Except.ok ?_
  simp only [hup, ite_not, divHalfEven]

/-- A significand of 24 bits and an exponent within its range make the pattern of the number they stand for. -/
theorem patternOf_spec (negative : Bool) {significand : Nat} {exponent : ℤ} (hlow : 2 ^ 23 ≤ significand)
    (hhigh : significand < 2 ^ 24) (hmin : -126 ≤ exponent) (hmax : exponent ≤ 127) :
    ∃ f, patternOf negative significand exponent = .ok f ∧ f.negative = negative ∧ f.IsNormal ∧
      f.magnitude = significand * 2 ^ (exponent - 23) ∧ f.significand = significand := by
  have hbiased : (UInt32.ofInt (exponent + 127)).toNat = (exponent + 127).toNat := by
    rw [UInt32.ofInt, UInt32.toNat_ofNat']
    omega
  have hfraction : (UInt32.ofNat (significand - 1 <<< 23)).toNat = significand - 2 ^ 23 := by
    rw [UInt32.toNat_ofNat', Nat.one_shiftLeft]
    omega
  have hrange : 1 ≤ UInt32.ofInt (exponent + 127) ∧ UInt32.ofInt (exponent + 127) < 0xff := by
    rw [UInt32.le_iff_toNat_le, UInt32.lt_iff_toNat_lt, hbiased]
    change 1 ≤ (exponent + 127).toNat ∧ (exponent + 127).toNat < 255
    omega
  have height : (UInt32.ofInt (exponent + 127)).toNat < 2 ^ 8 := by omega
  have hthree : (UInt32.ofNat (significand - 1 <<< 23)).toNat < 2 ^ 23 := by omega
  obtain ⟨hsign, hexponent, hbits⟩ := Binary32.assemble_fields negative height hthree
  have hsignificand : (Binary32.assemble negative (UInt32.ofInt (exponent + 127))
      (UInt32.ofNat (significand - 1 <<< 23))).significand = significand := by
    rw [Binary32.significand, hbits, hfraction]
    omega
  refine ⟨_, ?_, hsign, ?_, ?_, hsignificand⟩
  · rw [patternOf, Fault.assert_of (show 1 <<< 23 ≤ significand ∧ significand < 1 <<< 24 from ⟨hlow, hhigh⟩)]
    change (Fault.assert _ _ >>= _) = _
    rw [Fault.assert_of hrange]
    rfl
  · rw [Binary32.IsNormal, hexponent, hbiased]
    omega
  · have hpower : ((exponent + 127).toNat : ℤ) - 150 = exponent - 23 := by omega
    rw [Binary32.magnitude, hsignificand, hexponent, hbiased, hpower]

/-- A significand of 24 bits, or the carry out of one, is assembled to the number it stands for. -/
theorem assembleFloat_spec (negative : Bool) {significand : Nat} {exponent : ℤ} (hlow : 2 ^ 23 ≤ significand)
    (hhigh : significand ≤ 2 ^ 24) (hmin : -126 ≤ exponent) (hmax : exponent ≤ 126) :
    ∃ f, assembleFloat negative significand exponent = .ok f ∧ f.negative = negative ∧ f.IsNormal ∧
      f.magnitude = significand * 2 ^ (exponent - 23) ∧ (significand % 2 = 0 → f.significand % 2 = 0) := by
  by_cases hcarry : significand = 2 ^ 24
  · subst hcarry
    obtain ⟨f, hf, hsign, hnormal, hvalue, hsignificand⟩ :=
      patternOf_spec negative (Nat.le_refl (2 ^ 23)) (by norm_num) (show -126 ≤ exponent + 1 by omega) (by omega)
    refine ⟨f, ?_, hsign, hnormal, ?_, fun _ => by rw [hsignificand]; norm_num⟩
    · exact (if_pos rfl).trans hf
    · rw [hvalue, show exponent + 1 - 23 = 1 + (exponent - 23) by omega, zpow_add₀ (by norm_num), zpow_one]
      push_cast
      ring
  · obtain ⟨f, hf, hsign, hnormal, hvalue, hsignificand⟩ :=
      patternOf_spec negative hlow (show significand < 2 ^ 24 by omega) hmin (by omega)
    exact ⟨f, (if_neg hcarry).trans hf, hsign, hnormal, hvalue, fun heven => by rw [hsignificand]; exact heven⟩

/-! ## The conversion -/

/-- The exponents of the decimals stay far inside the range of the floats. -/
theorem exponent_range {self : DotNetDecimal} (h : self.Valid) (hpos : 0 < self.mantissa) {exponent : ℤ}
    (hbinade : InBinade (self.mantissa / (10 ^ self.scale : ℕ)) exponent) : -94 ≤ exponent ∧ exponent < 96 := by
  obtain ⟨hlow, hhigh⟩ := hbinade
  have hmantissa : (self.mantissa : ℚ) < 2 ^ (96 : ℤ) := by
    have hlt : self.mantissa < 2 ^ 96 := lt_of_le_of_lt h.1 (by decide)
    exact_mod_cast hlt
  have hone : (1 : ℚ) ≤ self.mantissa := by exact_mod_cast hpos
  have hscale : ((10 ^ self.scale : ℕ) : ℚ) < 2 ^ (94 : ℤ) := by
    have hle : 10 ^ self.scale ≤ 10 ^ 28 := Nat.pow_le_pow_right (by norm_num) h.2
    have hlt : 10 ^ self.scale < 2 ^ 94 := lt_of_le_of_lt hle (by norm_num)
    exact_mod_cast hlt
  have hscalepos : (1 : ℚ) ≤ (10 ^ self.scale : ℕ) := by exact_mod_cast Nat.one_le_pow _ _ (by norm_num)
  have hpositive : (0 : ℚ) < (10 ^ self.scale : ℕ) := by linarith
  constructor
  · have hbelow : (2 : ℚ) ^ (-94 : ℤ) < 2 ^ (exponent + 1) := by
      refine lt_trans ?_ hhigh
      rw [lt_div_iff₀ hpositive, zpow_neg, inv_mul_lt_iff₀ (by positivity)]
      linarith
    have hexponent := (zpow_lt_zpow_iff_right₀ (by norm_num : (1 : ℚ) < 2)).1 hbelow
    omega
  · have habove : (2 : ℚ) ^ exponent < 2 ^ (96 : ℤ) := by
      refine lt_of_le_of_lt hlow (lt_of_le_of_lt ?_ hmantissa)
      exact div_le_self (by linarith) hscalepos
    exact (zpow_lt_zpow_iff_right₀ (by norm_num : (1 : ℚ) < 2)).1 habove

/-- The rounded significand of a number of a binade is between the least one and the carry. -/
theorem halfEven_binade {x : ℚ} {exponent : ℤ} (h : InBinade x exponent) :
    x * 2 ^ (23 - exponent) < 2 ^ 24 ∧ 2 ^ 23 ≤ halfEven (x * 2 ^ (23 - exponent)) ∧
      halfEven (x * 2 ^ (23 - exponent)) ≤ 2 ^ 24 := by
  have hscale : (0 : ℚ) < 2 ^ (23 - exponent) := by positivity
  have hlow : ((2 ^ 23 : ℕ) : ℚ) ≤ x * 2 ^ (23 - exponent) := by
    have hmul := mul_le_mul_of_nonneg_right h.1 hscale.le
    rw [← zpow_add₀ (by norm_num), show exponent + (23 - exponent) = 23 by omega] at hmul
    exact_mod_cast hmul
  have hhigh : x * 2 ^ (23 - exponent) < (2 ^ 24 : ℕ) := by
    have hmul := mul_lt_mul_of_pos_right h.2 hscale
    rw [← zpow_add₀ (by norm_num), show exponent + 1 + (23 - exponent) = 24 by omega] at hmul
    exact_mod_cast hmul
  have hleast := halfEven_mono hlow
  have hgreatest := halfEven_mono hhigh.le
  rw [halfEven_natCast] at hleast hgreatest
  exact ⟨by exact_mod_cast hhigh, hleast, hgreatest⟩

/-- What `to_f32` computes before it rounds, for a mantissa that is not zero. -/
structure Divides (number : DotNetDecimal) (exponent : ℤ) (parts : U256 × U256) : Prop where
  estimated : quotientExponent (U256.fromU128 number.mantissa) (U256.fromU128 (10 ^ number.scale)) = .ok exponent
  computed : scaledParts (U256.fromU128 number.mantissa) (U256.fromU128 (10 ^ number.scale)) exponent = .ok parts
  binade : InBinade (number.mantissa / (10 ^ number.scale : ℕ)) exponent
  scaled : Scaled (number.mantissa / (10 ^ number.scale : ℕ)) exponent parts

/-- A mantissa that is not zero is scaled without a panic. -/
theorem exists_divides {self : DotNetDecimal} (h : self.Valid) (hpos : 0 < self.mantissa) :
    ∃ exponent parts, Divides self exponent parts := by
  have hlt : self.mantissa < 2 ^ 96 := lt_of_le_of_lt h.1 (by decide)
  have hle : 10 ^ self.scale ≤ 10 ^ 28 := Nat.pow_le_pow_right (by norm_num) h.2
  have hpow : 10 ^ self.scale < 2 ^ 94 := lt_of_le_of_lt hle (by norm_num)
  have hpowpos : 0 < 10 ^ self.scale := Nat.pow_pos (by norm_num)
  have hnumerator : (U256.fromU128 self.mantissa).toNat = self.mantissa := U256.toNat_fromU128 (by omega)
  have hdenominator : (U256.fromU128 (10 ^ self.scale)).toNat = 10 ^ self.scale := U256.toNat_fromU128 (by omega)
  rw [← hnumerator] at hpos hlt
  rw [← hdenominator] at hpow hpowpos
  obtain ⟨exponent, hexponent, hbinade⟩ := quotientExponent_spec hpos hpowpos hlt hpow
  obtain ⟨parts, hparts, hscaled⟩ := scaledParts_spec hpowpos hlt hpow hbinade
  rw [hnumerator, hdenominator] at hbinade hscaled
  exact ⟨exponent, parts, hexponent, hparts, hbinade, hscaled⟩

/-- `to_f32` rounds what it has divided. -/
theorem Divides.toF32_eq {self : DotNetDecimal} {exponent : ℤ} {parts : U256 × U256} (h : Divides self exponent parts)
    (hvalid : self.Valid) (hpos : 0 < self.mantissa) :
    self.toF32 = (roundedSignificand parts.1 parts.2 >>= fun significand =>
      assembleFloat self.negative significand exponent) := by
  have hle : 10 ^ self.scale ≤ 10 ^ 28 := Nat.pow_le_pow_right (by norm_num) hvalid.2
  have hpower : checkedPow 10 self.scale = some (10 ^ self.scale) := if_pos (lt_of_le_of_lt hle (by norm_num))
  rw [toF32, if_neg (by omega), hpower, Fault.expect_some]
  change (quotientExponent _ _ >>= _) = _
  rw [h.estimated]
  change (scaledParts _ _ exponent >>= _) = _
  rw [h.computed]
  rfl

/-- The significand that `to_f32` computes is the scaled quotient rounded half to even. -/
theorem roundedSignificand_scaled {x : ℚ} {exponent : ℤ} {parts : U256 × U256} (hbinade : InBinade x exponent)
    (hscaled : Scaled x exponent parts) : parts.1.toNat < parts.2.toNat * 2 ^ 24 ∧
      roundedSignificand parts.1 parts.2 = .ok (halfEven (x * 2 ^ (23 - exponent))) := by
  have hdpos : (0 : ℚ) < parts.2.toNat := by exact_mod_cast hscaled.positive
  have hhigh := (halfEven_binade hbinade).1
  rw [← hscaled.value, div_lt_iff₀ hdpos, mul_comm] at hhigh
  have hquotient : parts.1.toNat < parts.2.toNat * 2 ^ 24 := by exact_mod_cast hhigh
  refine ⟨hquotient, ?_⟩
  have hbound : parts.1.toNat < parts.2.toNat * 2 ^ 25 :=
    lt_of_lt_of_le hquotient (Nat.mul_le_mul_left _ (by norm_num))
  rw [roundedSignificand_spec hscaled.positive hscaled.small hbound, ← hscaled.value, halfEven_div _ hscaled.positive]

/-- `to_f32` never panics. A zero keeps its sign; any other decimal becomes the normal number nearest to it, with its sign, of two
equally near ones the one with the even significand. The quotient that it rounds is the exact floor of the numbers divided. -/
theorem toF32_nearestEven {self : DotNetDecimal} (h : self.Valid) :
    (∃ f, self.toF32 = .ok f ∧ f.negative = self.negative ∧
      (self.mantissa = 0 → f.biasedExponent = 0 ∧ f.fraction = 0) ∧
      (0 < self.mantissa → f.IsNormal ∧ f.NearestEven (self.mantissa / 10 ^ self.scale))) ∧
    (0 < self.mantissa → ∃ exponent parts remainder,
      quotientExponent (U256.fromU128 self.mantissa) (U256.fromU128 (10 ^ self.scale)) = .ok exponent ∧
      scaledParts (U256.fromU128 self.mantissa) (U256.fromU128 (10 ^ self.scale)) exponent = .ok parts ∧
      parts.1.divRemU32Quotient parts.2 = .ok (parts.1.toNat / parts.2.toNat, remainder) ∧
      remainder.toNat = parts.1.toNat % parts.2.toNat) := by
  rcases Nat.eq_zero_or_pos self.mantissa with hzero | hpos
  · refine ⟨⟨if self.negative then .ofBits 0x80000000 else .ofBits 0, if_pos hzero, ?_, ?_, fun hpos => ?_⟩, fun hpos => ?_⟩
    · rcases self.negative with _ | _ <;> rfl
    · rcases self.negative with _ | _ <;> exact fun _ => ⟨rfl, rfl⟩
    · omega
    · omega
  · obtain ⟨exponent, parts, hdivides⟩ := exists_divides h hpos
    obtain ⟨hquotient, hrounded⟩ := roundedSignificand_scaled hdivides.binade hdivides.scaled
    obtain ⟨-, hlow, hhigh⟩ := halfEven_binade hdivides.binade
    obtain ⟨hmin, hmax⟩ := exponent_range h hpos hdivides.binade
    obtain ⟨f, hf, hsign, hnormal, hvalue, heven⟩ :=
      assembleFloat_spec self.negative hlow hhigh (show -126 ≤ exponent by omega) (by omega)
    have hcast : ((10 ^ self.scale : ℕ) : ℚ) = 10 ^ self.scale := by push_cast; rfl
    have hnearest := Binary32.nearestEven_of_halfEven hdivides.binade.1 hvalue heven
    rw [hcast] at hnearest
    refine ⟨⟨f, ?_, hsign, fun hzero => absurd hzero (by omega), fun _ => ⟨hnormal, hnearest⟩⟩, fun _ => ?_⟩
    · rw [hdivides.toF32_eq h hpos, hrounded]
      exact hf
    · have hbound : parts.1.toNat < parts.2.toNat * 2 ^ 25 :=
        lt_of_lt_of_le hquotient (Nat.mul_le_mul_left _ (by norm_num))
      have hsmall := hdivides.scaled.small
      obtain ⟨remainder, hremainder, hremaindervalue⟩ := U256.divRemU32Quotient_spec hbound (by omega)
      exact ⟨exponent, parts, remainder, hdivides.estimated, hdivides.computed, hremainder, hremaindervalue⟩

/-- The conversion of 1.65 to the nearest float. -/
theorem toF32_nearestEven_sample : ∃ f, (DotNetDecimal.mk 165 2 false).toF32 = .ok f ∧ f.NearestEven (165 / 10 ^ 2) := by
  obtain ⟨⟨f, hf, -, -, hnearest⟩, -⟩ := toF32_nearestEven (show (DotNetDecimal.mk 165 2 false).Valid by decide)
  exact ⟨f, hf, by exact_mod_cast (hnearest (by norm_num)).2⟩

end DotNetDecimal
end P5136
