import Mathlib.Data.Rat.Floor
import P5136.Core.U256

/-!
# The 96-bit decimal

The decimal that the data path computes with (`dotnet_decimal.rs`): a mantissa of 96 bits, a scale of at most 28 digits, and a
sign. Sums and products are computed exactly and then rounded, half to even, to the largest scale at which the mantissa fits.
-/

namespace P5136

open Option U256

/-- `DOTNET_DECIMAL_MAX_MANTISSA`. -/
def dotnetDecimalMaxMantissa : Nat := 2 ^ 96 - 1

structure DotNetDecimal where
  mantissa : Nat
  scale : Nat
  negative : Bool
deriving DecidableEq

namespace DotNetDecimal

/-- `ZERO`. -/
def zero : DotNetDecimal := ⟨0, 0, false⟩

/-- The bounds that `from_parts` checks. -/
def Valid (self : DotNetDecimal) : Prop := self.mantissa ≤ dotnetDecimalMaxMantissa ∧ self.scale ≤ 28

instance (self : DotNetDecimal) : Decidable self.Valid := inferInstanceAs (Decidable (_ ∧ _))

/-- The loop of `from_wide` over the counts of digits to remove. -/
def fromWideLoop (value : U256) (scale : Nat) (negative : Bool) : List Nat → Option DotNetDecimal
  | [] => none
  | removed :: rest => do
    let rounded ← value.roundDivPowerOfTen removed
    if rounded.fitsDecimalMantissa then
      if rounded.toU128 = 0 then some zero else some ⟨rounded.toU128, scale - removed, negative⟩
    else fromWideLoop value scale negative rest

def fromWide (value : U256) (scale : Nat) (negative : Bool) : Option DotNetDecimal :=
  let minimumRemoved := scale - 28
  fromWideLoop value scale negative (List.range' minimumRemoved (scale + 1 - minimumRemoved))

def checkedMul (self other : DotNetDecimal) : Option DotNetDecimal := do
  let product ← multiplyU128 self.mantissa other.mantissa
  fromWide product (self.scale + other.scale) (self.negative ^^ other.negative)

/-- The sum of two magnitudes at one scale, by sign. -/
def addAligned (left right : U256) (scale : Nat) (leftNegative rightNegative : Bool) : Option DotNetDecimal :=
  if leftNegative = rightNegative then do
    let magnitude ← left.checkedAdd right
    fromWide magnitude scale leftNegative
  else
    match left.magnitudeCmp right with
    | .lt => do
      let magnitude ← right.checkedSub left
      fromWide magnitude scale rightNegative
    | .eq => some zero
    | .gt => do
      let magnitude ← left.checkedSub right
      fromWide magnitude scale leftNegative

def checkedAdd (self other : DotNetDecimal) : Option DotNetDecimal := do
  let scale := max self.scale other.scale
  let left ← (fromU128 self.mantissa).checkedMulPowerOfTen (scale - self.scale)
  let right ← (fromU128 other.mantissa).checkedMulPowerOfTen (scale - other.scale)
  addAligned left right scale self.negative other.negative

/-! ## What they are for -/

/-- The sign of a decimal as a factor. -/
def signFactor (negative : Bool) : ℚ := if negative then -1 else 1

/-- The number that a decimal stands for. -/
def toRat (self : DotNetDecimal) : ℚ := signFactor self.negative * (self.mantissa / 10 ^ self.scale)

/-- The mantissa of a number rounded half to even to a scale. -/
def mantissaAt (r : ℚ) (scale : Nat) : Nat := halfEven (|r| * 10 ^ scale)

/-- A number rounded to a scale has a mantissa of 96 bits. -/
def Fits (r : ℚ) (scale : Nat) : Prop := mantissaAt r scale ≤ dotnetDecimalMaxMantissa

/-- The decimal of a number rounded to a scale; zero has one form. -/
def roundedAt (r : ℚ) (scale : Nat) : DotNetDecimal :=
  if mantissaAt r scale = 0 then zero else ⟨mantissaAt r scale, scale, decide (r < 0)⟩

/-- A result is the rounding of a number to the largest scale, of at most 28 and the natural one, at which the mantissa fits;
there is none when no scale fits. -/
def IsRounding (r : ℚ) (natural : Nat) : Option DotNetDecimal → Prop
  | some result => ∃ scale ≤ min natural 28, Fits r scale ∧ (∀ finer ≤ min natural 28, scale < finer → ¬ Fits r finer) ∧
      result = roundedAt r scale
  | none => ∀ scale ≤ min natural 28, ¬ Fits r scale

/-- A coarser scale fits when a finer one does. -/
theorem Fits.mono {r : ℚ} {coarse fine : Nat} (h : Fits r fine) (hle : coarse ≤ fine) : Fits r coarse := by
  refine le_trans (halfEven_mono ?_) h
  exact mul_le_mul_of_nonneg_left (pow_le_pow_right₀ (by norm_num) hle) (abs_nonneg r)

/-- Zero rounds to zero. -/
theorem isRounding_zero {r : ℚ} (h : r = 0) (natural : Nat) : IsRounding r natural (some zero) := by
  have hzero : ∀ scale, mantissaAt r scale = 0 := by
    intro scale
    rw [mantissaAt, h, abs_zero, zero_mul, ← Nat.cast_zero, halfEven_natCast]
  refine ⟨min natural 28, Nat.le_refl _, ?_, fun finer hfiner hlt => absurd hfiner (by omega), ?_⟩
  · rw [Fits, hzero]
    exact Nat.zero_le _
  · rw [roundedAt, if_pos (hzero _)]

/-- The rounding of a number is determined. -/
theorem IsRounding.unique {r : ℚ} {natural : Nat} {x y : Option DotNetDecimal} (hx : IsRounding r natural x)
    (hy : IsRounding r natural y) : x = y := by
  rcases x with _ | x <;> rcases y with _ | y
  · rfl
  · obtain ⟨scale, hle, hfits, -, -⟩ := hy
    exact absurd hfits (hx scale hle)
  · obtain ⟨scale, hle, hfits, -, -⟩ := hx
    exact absurd hfits (hy scale hle)
  · obtain ⟨s, hs, hsfits, hsmax, rfl⟩ := hx
    obtain ⟨t, ht, htfits, htmax, rfl⟩ := hy
    have hst : s = t := by
      rcases Nat.lt_trichotomy s t with hlt | heq | hgt
      · exact absurd htfits (hsmax t ht hlt)
      · exact heq
      · exact absurd hsfits (htmax s hs hgt)
    rw [hst]

/-- There is no rounding exactly when scale 0 does not fit. -/
theorem IsRounding.eq_none_iff {r : ℚ} {natural : Nat} {x : Option DotNetDecimal} (h : IsRounding r natural x) :
    x = none ↔ ¬ Fits r 0 := by
  rcases x with _ | x
  · exact ⟨fun _ => h 0 (Nat.zero_le _), fun _ => rfl⟩
  · obtain ⟨scale, -, hfits, -, -⟩ := h
    exact ⟨fun hnone => absurd hnone (by simp), fun hno => absurd (hfits.mono (Nat.zero_le _)) hno⟩

/-- A rounding is within the bounds of a decimal. -/
theorem IsRounding.valid {r : ℚ} {natural : Nat} {result : DotNetDecimal} (h : IsRounding r natural (some result)) :
    result.Valid := by
  obtain ⟨scale, hle, hfits, -, rfl⟩ := h
  unfold roundedAt
  split
  · decide
  · exact ⟨hfits, show scale ≤ 28 by omega⟩

/-! ## The search for the scale -/

/-- The decimal of the digits that are left after so many are removed. -/
def ofDigits (digits scale : Nat) (negative : Bool) (removed : Nat) : DotNetDecimal :=
  if divHalfEven digits (10 ^ removed) = 0 then zero
  else ⟨divHalfEven digits (10 ^ removed), scale - removed, negative⟩

/-- The mantissa fits after so many digits are removed. -/
def fitsAfter (digits removed : Nat) : Bool := decide (divHalfEven digits (10 ^ removed) ≤ dotnetDecimalMaxMantissa)

/-- The first count of removed digits after which the mantissa fits, from a count on. -/
def search (digits scale : Nat) (negative : Bool) (first : Nat) : Option DotNetDecimal :=
  ((List.range' first (scale + 1 - first)).find? (fitsAfter digits)).map (ofDigits digits scale negative)

/-- Removing digits is rounding to a smaller scale. -/
theorem mantissaAt_eq {r : ℚ} {digits scale : Nat} (hr : |r| = digits / 10 ^ scale) {removed : Nat} (h : removed ≤ scale) :
    mantissaAt r (scale - removed) = divHalfEven digits (10 ^ removed) := by
  have hpow : (10 : ℚ) ^ scale = 10 ^ (scale - removed) * 10 ^ removed := by
    rw [← pow_add, Nat.sub_add_cancel h]
  have hvalue : |r| * 10 ^ (scale - removed) = (digits : ℚ) / (10 ^ removed : ℕ) := by
    rw [hr, hpow]
    push_cast
    field_simp
  rw [mantissaAt, hvalue, halfEven_div _ (by positivity)]

/-- The search finds the rounding, when the counts below the first that leave a scale of at most 28 do not fit. -/
theorem search_isRounding {r : ℚ} {digits scale : Nat} {negative : Bool} {first : Nat} (hr : |r| = digits / 10 ^ scale)
    (hnegative : digits ≠ 0 → (negative = true ↔ r < 0)) (hfirst : scale - 28 ≤ first)
    (hbelow : ∀ removed, scale - 28 ≤ removed → removed ≤ scale → removed < first → fitsAfter digits removed = false) :
    IsRounding r scale (search digits scale negative first) := by
  have hfits : ∀ {removed}, removed ≤ scale → (fitsAfter digits removed = true ↔ Fits r (scale - removed)) := by
    intro removed hle
    rw [fitsAfter, decide_eq_true_eq, Fits, mantissaAt_eq hr hle]
  unfold search
  rcases hfind : (List.range' first (scale + 1 - first)).find? (fitsAfter digits) with _ | removed
  · intro coarse hcoarse hfit
    rw [List.find?_eq_none] at hfind
    have hback : scale - (scale - coarse) = coarse := by omega
    rw [← hback, ← hfits (by omega)] at hfit
    by_cases hin : first ≤ scale - coarse
    · exact hfind (scale - coarse) (List.mem_range'_1.2 (by omega)) hfit
    · rw [hbelow _ (by omega) (by omega) (by omega)] at hfit
      exact absurd hfit (by simp)
  · rw [List.find?_range'_eq_some] at hfind
    obtain ⟨hfit, hmem, hleast⟩ := hfind
    have hremoved := List.mem_range'_1.1 hmem
    refine ⟨scale - removed, by omega, (hfits (by omega)).1 hfit, ?_, ?_⟩
    · intro finer hfiner hlt hfine
      have hback : scale - (scale - finer) = finer := by omega
      rw [← hback, ← hfits (by omega)] at hfine
      by_cases hin : first ≤ scale - finer
      · have hno := hleast (scale - finer) hin (by omega)
        rw [hfine] at hno
        exact absurd hno (by simp)
      · rw [hbelow _ (by omega) (by omega) (by omega)] at hfine
        exact absurd hfine (by simp)
    · unfold ofDigits roundedAt
      rw [mantissaAt_eq hr (by omega)]
      by_cases hzero : divHalfEven digits (10 ^ removed) = 0
      · rw [if_pos hzero, if_pos hzero]
      · rw [if_neg hzero, if_neg hzero]
        have hdigits : digits ≠ 0 := by
          rintro rfl
          exact hzero (by simp [divHalfEven])
        have hsign : negative = decide (r < 0) := by
          rw [Bool.eq_iff_iff, hnegative hdigits, decide_eq_true_eq]
        rw [hsign]

/-- The loop of `from_wide` is the search. -/
theorem fromWideLoop_eq (value : U256) (scale : Nat) (negative : Bool) (candidates : List Nat) :
    fromWideLoop value scale negative candidates =
      (candidates.find? (fitsAfter value.toNat)).map (ofDigits value.toNat scale negative) := by
  induction candidates with
  | nil => rfl
  | cons removed candidates ih =>
    obtain ⟨rounded, hrounded, hvalue⟩ := value.roundDivPowerOfTen_spec removed
    have hfits : rounded.fitsDecimalMantissa = fitsAfter value.toNat removed := by
      rw [Bool.eq_iff_iff, fitsDecimalMantissa_iff, fitsAfter, decide_eq_true_eq, hvalue,
        dotnetDecimalMaxMantissa]
      omega
    simp only [fromWideLoop, hrounded, bind_eq_bind, bind_some, hfits, List.find?_cons]
    rcases hfit : fitsAfter value.toNat removed with _ | _
    · simpa using ih
    · rw [toU128_eq ((fitsDecimalMantissa_iff _).1 (by rw [hfits, hfit])), hvalue]
      simp only [if_true, map_some, ofDigits]
      split <;> rfl

/-- `from_wide` rounds the number that the wide mantissa stands for at its scale. -/
theorem fromWide_isRounding {r : ℚ} {value : U256} {scale : Nat} {negative : Bool} (hr : |r| = value.toNat / 10 ^ scale)
    (hnegative : value.toNat ≠ 0 → (negative = true ↔ r < 0)) : IsRounding r scale (fromWide value scale negative) := by
  unfold fromWide
  rw [fromWideLoop_eq]
  exact search_isRounding hr hnegative (Nat.le_refl _) (fun removed hge _ hlt => absurd hge (by omega))

/-! ## Products and sums -/

theorem abs_signFactor (negative : Bool) : |signFactor negative| = 1 := by
  cases negative <;> simp [signFactor]

/-- A number with a sign has its magnitude, and is negative when its sign says so and it is not zero. -/
theorem signed_magnitude {r : ℚ} {digits scale : Nat} {negative : Bool}
    (hr : r = signFactor negative * ((digits : ℚ) / 10 ^ scale)) :
    |r| = digits / 10 ^ scale ∧ (digits ≠ 0 → (negative = true ↔ r < 0)) := by
  have hnonneg : (0 : ℚ) ≤ (digits : ℚ) / 10 ^ scale := by positivity
  refine ⟨by rw [hr, abs_mul, abs_signFactor, one_mul, abs_of_nonneg hnonneg], ?_⟩
  intro hdigits
  have hpos : (0 : ℚ) < (digits : ℚ) / 10 ^ scale := by
    have hcast : (0 : ℚ) < digits := by exact_mod_cast Nat.pos_of_ne_zero hdigits
    positivity
  rcases negative with _ | _
  · simp only [hr, signFactor, Bool.false_eq_true, if_false, one_mul, false_iff, not_lt]
    exact hpos.le
  · simp only [hr, signFactor, if_true, neg_mul, one_mul, neg_lt_zero, hpos]

/-- The product is rounded once. -/
theorem checkedMul_isRounding {self other : DotNetDecimal} (hself : self.Valid) (hother : other.Valid) :
    IsRounding (self.toRat * other.toRat) (self.scale + other.scale) (self.checkedMul other) := by
  have hselflt : self.mantissa < 2 ^ 128 := lt_of_le_of_lt hself.1 (by decide)
  have hotherlt : other.mantissa < 2 ^ 128 := lt_of_le_of_lt hother.1 (by decide)
  obtain ⟨product, hproduct, hvalue⟩ := multiplyU128_spec hselflt hotherlt
  have hr : self.toRat * other.toRat = signFactor (self.negative ^^ other.negative) *
      ((product.toNat : ℚ) / 10 ^ (self.scale + other.scale)) := by
    rw [hvalue, pow_add, toRat, toRat]
    push_cast
    rcases self.negative with _ | _ <;> rcases other.negative with _ | _ <;> simp [signFactor] <;> ring
  obtain ⟨habs, hsign⟩ := signed_magnitude hr
  simp only [checkedMul, hproduct, bind_eq_bind, bind_some]
  exact fromWide_isRounding habs hsign

/-- A mantissa brought to a scale. -/
structure Aligned (number : DotNetDecimal) (scale : Nat) (aligned : U256) : Prop where
  computed : (fromU128 number.mantissa).checkedMulPowerOfTen (scale - number.scale) = some aligned
  value : number.toRat = signFactor number.negative * ((aligned.toNat : ℚ) / 10 ^ scale)
  small : aligned.toNat < 2 ^ 192

/-- A mantissa is brought to any scale of at most 28 digits that is not smaller. -/
theorem exists_aligned {self : DotNetDecimal} (hself : self.Valid) {scale : Nat} (hle : self.scale ≤ scale)
    (hscale : scale ≤ 28) : ∃ aligned, Aligned self scale aligned := by
  have hlt : self.mantissa < 2 ^ 96 := lt_of_le_of_lt hself.1 (by decide)
  have hmantissa : (fromU128 self.mantissa).toNat = self.mantissa :=
    toNat_fromU128 (lt_of_lt_of_le hlt (by decide))
  have hpow : 10 ^ (scale - self.scale) ≤ 10 ^ 28 := Nat.pow_le_pow_right (by norm_num) (by omega)
  have hsmall : self.mantissa * 10 ^ (scale - self.scale) < 2 ^ 192 :=
    calc self.mantissa * 10 ^ (scale - self.scale) ≤ self.mantissa * 10 ^ 28 := Nat.mul_le_mul_left _ hpow
      _ < 2 ^ 96 * 10 ^ 28 := Nat.mul_lt_mul_of_pos_right hlt (by norm_num)
      _ < 2 ^ 192 := by norm_num
  obtain ⟨aligned, haligned, hvalue⟩ := checkedMulPowerOfTen_spec (fromU128 self.mantissa)
    (scale - self.scale) (by rw [hmantissa]; exact lt_trans hsmall (by norm_num))
  rw [hmantissa] at hvalue
  refine ⟨aligned, haligned, ?_, by rw [hvalue]; exact hsmall⟩
  have hsplit : (10 : ℚ) ^ scale = 10 ^ self.scale * 10 ^ (scale - self.scale) := by
    rw [← pow_add, Nat.add_sub_cancel' hle]
  rw [toRat, hvalue, hsplit]
  push_cast
  field_simp

/-- The sum of two magnitudes at one scale is rounded once. -/
theorem addAligned_isRounding {r s : ℚ} {left right : U256} {scale : Nat} {leftNegative rightNegative : Bool}
    (hr : r = signFactor leftNegative * ((left.toNat : ℚ) / 10 ^ scale))
    (hs : s = signFactor rightNegative * ((right.toNat : ℚ) / 10 ^ scale)) (hleft : left.toNat < 2 ^ 192)
    (hright : right.toNat < 2 ^ 192) :
    IsRounding (r + s) scale (addAligned left right scale leftNegative rightNegative) := by
  unfold addAligned
  by_cases hsame : leftNegative = rightNegative
  · subst hsame
    rw [if_pos rfl]
    obtain ⟨sum, hsum, hvalue⟩ := checkedAdd_spec left right (by omega)
    have htotal : r + s = signFactor leftNegative * ((sum.toNat : ℚ) / 10 ^ scale) := by
      rw [hr, hs, hvalue]
      push_cast
      ring
    obtain ⟨habs, hsign⟩ := signed_magnitude htotal
    simp only [hsum, bind_eq_bind, bind_some]
    exact fromWide_isRounding habs hsign
  · rw [if_neg hsame]
    have hopposite : signFactor rightNegative = -signFactor leftNegative := by
      rcases leftNegative with _ | _ <;> rcases rightNegative with _ | _ <;> simp_all [signFactor]
    rw [magnitudeCmp_eq]
    rcases hcompare : compare left.toNat right.toNat with _ | _ | _
    · have hlt := Nat.compare_eq_lt.1 hcompare
      obtain ⟨difference, hdifference, hvalue⟩ := checkedSub_spec right left hlt.le
      have htotal : r + s = signFactor rightNegative * ((difference.toNat : ℚ) / 10 ^ scale) := by
        rw [hr, hs, hvalue, Nat.cast_sub hlt.le, hopposite]
        ring
      obtain ⟨habs, hsign⟩ := signed_magnitude htotal
      simp only [hdifference, bind_eq_bind, bind_some]
      exact fromWide_isRounding habs hsign
    · have heq := Nat.compare_eq_eq.1 hcompare
      have htotal : r + s = 0 := by
        rw [hr, hs, heq, hopposite]
        ring
      exact isRounding_zero htotal scale
    · have hgt := Nat.compare_eq_gt.1 hcompare
      obtain ⟨difference, hdifference, hvalue⟩ := checkedSub_spec left right hgt.le
      have htotal : r + s = signFactor leftNegative * ((difference.toNat : ℚ) / 10 ^ scale) := by
        rw [hr, hs, hvalue, Nat.cast_sub hgt.le, hopposite]
        ring
      obtain ⟨habs, hsign⟩ := signed_magnitude htotal
      simp only [hdifference, bind_eq_bind, bind_some]
      exact fromWide_isRounding habs hsign

/-- The sum is rounded once. -/
theorem checkedAdd_isRounding {self other : DotNetDecimal} (hself : self.Valid) (hother : other.Valid) :
    IsRounding (self.toRat + other.toRat) (max self.scale other.scale) (self.checkedAdd other) := by
  have hscale : max self.scale other.scale ≤ 28 := max_le hself.2 hother.2
  obtain ⟨left, hleft⟩ := exists_aligned hself (le_max_left self.scale other.scale) hscale
  obtain ⟨right, hright⟩ := exists_aligned hother (le_max_right self.scale other.scale) hscale
  simp only [checkedAdd, hleft.computed, hright.computed, bind_eq_bind, bind_some]
  exact addAligned_isRounding hleft.value hright.value hleft.small hright.small

/-- The steps in 256 bits that the product and the sum of two decimals take: none of them is without a result. -/
structure StepsSucceed (a b : DotNetDecimal) : Prop where
  multiply : ∃ product, multiplyU128 a.mantissa b.mantissa = some product
  align : ∃ left right,
    (fromU128 a.mantissa).checkedMulPowerOfTen (max a.scale b.scale - a.scale) = some left ∧
    (fromU128 b.mantissa).checkedMulPowerOfTen (max a.scale b.scale - b.scale) = some right ∧
    (∃ sum, left.checkedAdd right = some sum) ∧
    (left.magnitudeCmp right ≠ .gt → ∃ difference, right.checkedSub left = some difference) ∧
    (left.magnitudeCmp right ≠ .lt → ∃ difference, left.checkedSub right = some difference)
  round : ∀ (wide : U256) (removed : Nat), ∃ rounded, wide.roundDivPowerOfTen removed = some rounded

/-- No step in 256 bits overflows. -/
theorem stepsSucceed {a b : DotNetDecimal} (ha : a.Valid) (hb : b.Valid) : StepsSucceed a b := by
  have hscale : max a.scale b.scale ≤ 28 := max_le ha.2 hb.2
  obtain ⟨product, hproduct, -⟩ := multiplyU128_spec
    (show a.mantissa < 2 ^ 128 from lt_of_le_of_lt ha.1 (by decide))
    (show b.mantissa < 2 ^ 128 from lt_of_le_of_lt hb.1 (by decide))
  obtain ⟨left, hleft⟩ := exists_aligned ha (le_max_left a.scale b.scale) hscale
  obtain ⟨right, hright⟩ := exists_aligned hb (le_max_right a.scale b.scale) hscale
  have hleftsmall := hleft.small
  have hrightsmall := hright.small
  refine ⟨⟨product, hproduct⟩, ⟨left, right, hleft.computed, hright.computed, ?_, ?_, ?_⟩, ?_⟩
  · obtain ⟨sum, hsum, -⟩ := checkedAdd_spec left right (by omega)
    exact ⟨sum, hsum⟩
  · intro hcompare
    rw [magnitudeCmp_eq, Ne, Nat.compare_eq_gt, not_lt] at hcompare
    obtain ⟨difference, hdifference, -⟩ := checkedSub_spec right left hcompare
    exact ⟨difference, hdifference⟩
  · intro hcompare
    rw [magnitudeCmp_eq, Ne, Nat.compare_eq_lt, not_lt] at hcompare
    obtain ⟨difference, hdifference, -⟩ := checkedSub_spec left right hcompare
    exact ⟨difference, hdifference⟩
  · intro wide removed
    obtain ⟨rounded, hrounded, -⟩ := wide.roundDivPowerOfTen_spec removed
    exact ⟨rounded, hrounded⟩

/-- The product and the sum of two decimals are the exact product and sum, rounded once: half to even, to the largest scale of at
most 28 and the natural one at which the mantissa fits. There is none exactly when not even scale 0 fits, no step in 256 bits
overflows, the results are within the bounds, and the order of the operands does not matter. -/
theorem checked_arithmetic_rounds (a b : DotNetDecimal) (ha : a.Valid) (hb : b.Valid) :
    IsRounding (a.toRat * b.toRat) (a.scale + b.scale) (a.checkedMul b) ∧
    IsRounding (a.toRat + b.toRat) (max a.scale b.scale) (a.checkedAdd b) ∧
    (a.checkedMul b = none ↔ ¬ Fits (a.toRat * b.toRat) 0) ∧
    (a.checkedAdd b = none ↔ ¬ Fits (a.toRat + b.toRat) 0) ∧
    StepsSucceed a b ∧
    (∀ result, a.checkedMul b = some result ∨ a.checkedAdd b = some result → result.Valid) ∧
    a.checkedMul b = b.checkedMul a ∧ a.checkedAdd b = b.checkedAdd a := by
  have hmul := checkedMul_isRounding ha hb
  have hadd := checkedAdd_isRounding ha hb
  refine ⟨hmul, hadd, hmul.eq_none_iff, hadd.eq_none_iff, stepsSucceed ha hb, ?_, ?_, ?_⟩
  · rintro result (hresult | hresult)
    · exact (hresult ▸ hmul).valid
    · exact (hresult ▸ hadd).valid
  · have hswap := checkedMul_isRounding hb ha
    rw [mul_comm, Nat.add_comm] at hswap
    exact hmul.unique hswap
  · have hswap := checkedAdd_isRounding hb ha
    rw [add_comm, max_comm] at hswap
    exact hadd.unique hswap

/-- Half of five units in the last place, a tie. -/
theorem checked_arithmetic_rounds_tie :
    IsRounding (toRat ⟨5, 1, false⟩ * toRat ⟨5, 28, true⟩) 29 (checkedMul ⟨5, 1, false⟩ ⟨5, 28, true⟩) ∧
      IsRounding (toRat ⟨5, 1, false⟩ + toRat ⟨5, 28, true⟩) 28 (checkedAdd ⟨5, 1, false⟩ ⟨5, 28, true⟩) :=
  have h := checked_arithmetic_rounds ⟨5, 1, false⟩ ⟨5, 28, true⟩ (by decide) (by decide)
  ⟨h.1, h.2.1⟩

-- The tie goes to the even digit, and the sum of the two needs a digit less than it has.
example : checkedMul ⟨5, 1, false⟩ ⟨5, 28, true⟩ = some ⟨2, 28, true⟩ := by decide +kernel
example : checkedAdd ⟨2 ^ 96 - 1, 28, false⟩ ⟨5, 28, false⟩ = some ⟨7922816251426433759354395034, 27, false⟩ := by
  decide +kernel

end DotNetDecimal
end P5136
