import P5136.Lib.HalfEven
import P5136.Lib.Limbs

/-!
# 256-bit unsigned numbers

The four-limb number under the decimals (`dotnet_decimal.rs`): the products of two 128-bit numbers, sums, differences and
multiples by a power of ten, and the quotient by a power of ten rounded half to even.
-/

namespace P5136

/-- `U256`: four 64-bit limbs, the least significant first. -/
structure U256 where
  limbs : List UInt64
  length_limbs : limbs.length = 4

namespace U256

/-- The limb of an index. -/
def limb (self : U256) (index : Fin 4) : UInt64 := self.limbs.get (index.cast self.length_limbs.symm)

/-- The number that the limbs stand for. -/
def toNat (self : U256) : Nat := Limbs.value self.limbs

def fromU128 (value : Nat) : U256 := ⟨[UInt64.ofNat value, UInt64.ofNat (value >>> 64), 0, 0], rfl⟩

/-- The two limbs of a 128-bit number. -/
def limbsOfU128 (value : Nat) : List UInt64 := [UInt64.ofNat value, UInt64.ofNat (value >>> 64)]

/-- `multiply_u128`; there is no result when a carry is written past the fourth limb. -/
def multiplyU128 (left right : Nat) : Option U256 :=
  match Limbs.multiplyRows [0, 0, 0, 0] (limbsOfU128 left) (limbsOfU128 right) with
  | none => none
  | some product => if h : product.length = 4 then some ⟨product, h⟩ else none

def checkedAdd (self other : U256) : Option U256 :=
  let sum := Limbs.add self.limbs other.limbs false
  if sum.2 then none
  else some ⟨sum.1, by rw [Limbs.length_add (by rw [self.length_limbs, other.length_limbs]), self.length_limbs]⟩

def magnitudeCmp (self other : U256) : Ordering := Limbs.compareTop self.limbs other.limbs

def checkedSub (self other : U256) : Option U256 :=
  match self.magnitudeCmp other with
  | .lt => none
  | _ => some ⟨(Limbs.sub self.limbs other.limbs false).1, by
      rw [Limbs.length_sub (by rw [self.length_limbs, other.length_limbs]), self.length_limbs]⟩

def checkedMulU64 (self : U256) (multiplier : UInt64) : Option U256 :=
  let product := Limbs.mulSmall self.limbs multiplier 0
  if product.2 = 0 then some ⟨product.1, by rw [Limbs.length_mulSmall, self.length_limbs]⟩ else none

def checkedMulPowerOfTen (self : U256) : Nat → Option U256
  | 0 => some self
  | power + 1 => do
    let next ← self.checkedMulU64 10
    checkedMulPowerOfTen next power

def divRemU64 (self : U256) (divisor : UInt64) : U256 × Nat :=
  (⟨(Limbs.divSmall self.limbs divisor).1, by rw [Limbs.length_divSmall, self.length_limbs]⟩,
    (Limbs.divSmall self.limbs divisor).2)

/-- What `round_div_power_of_ten` carries from digit to digit. -/
structure Removal where
  quotient : U256
  sticky : Bool
  roundDigit : Nat

/-- One digit of `round_div_power_of_ten`. -/
def Removal.step (power : Nat) (state : Removal) (digit : Nat) : Removal :=
  let next := state.quotient.divRemU64 10
  if digit + 1 = power then ⟨next.1, state.sticky, next.2⟩
  else ⟨next.1, state.sticky || decide (next.2 ≠ 0), state.roundDigit⟩

def roundDivPowerOfTen (self : U256) (power : Nat) : Option U256 :=
  if power = 0 then some self
  else
    let state := (List.range power).foldl (Removal.step power) ⟨self, false, 0⟩
    if 5 < state.roundDigit ∨
        state.roundDigit = 5 ∧ (state.sticky = true ∨ state.quotient.limb 0 &&& 1 ≠ 0)
    then state.quotient.checkedAdd (fromU128 1)
    else some state.quotient

def fitsDecimalMantissa (self : U256) : Bool :=
  self.limb 2 = 0 && self.limb 3 = 0 && decide ((self.limb 1).toNat < 2 ^ 32)

def toU128 (self : U256) : Nat := (self.limb 0).toNat ||| (self.limb 1).toNat <<< 64

/-! ## The numbers they stand for -/

theorem toNat_lt (self : U256) : self.toNat < 2 ^ 256 := by
  have h := Limbs.value_lt self.limbs
  rwa [self.length_limbs] at h

/-- The number of four limbs, limb by limb. -/
theorem toNat_eq_limbs (self : U256) :
    self.toNat = (self.limb 0).toNat + 2 ^ 64 * ((self.limb 1).toNat +
      2 ^ 64 * ((self.limb 2).toNat + 2 ^ 64 * (self.limb 3).toNat)) := by
  obtain ⟨limbs, hlimbs⟩ := self
  match limbs, hlimbs with
  | [a, b, c, d], _ => rfl

@[simp] theorem toNat_fromU128 {value : Nat} (h : value < 2 ^ 128) : (fromU128 value).toNat = value := by
  simp only [fromU128, toNat, Limbs.value, UInt64.toNat_ofNat', UInt64.toNat_zero, Nat.shiftRight_eq_div_pow]
  omega

theorem value_limbsOfU128 {value : Nat} (h : value < 2 ^ 128) : Limbs.value (limbsOfU128 value) = value := by
  simp only [limbsOfU128, Limbs.value, UInt64.toNat_ofNat', Nat.shiftRight_eq_div_pow]
  omega

/-- The product of two 128-bit numbers is exact. -/
theorem multiplyU128_spec {left right : Nat} (hleft : left < 2 ^ 128) (hright : right < 2 ^ 128) :
    ∃ product, multiplyU128 left right = some product ∧ product.toNat = left * right := by
  have hlt : left * right < 2 ^ 256 := by
    have h := Nat.mul_lt_mul'' hleft hright
    rwa [← pow_add] at h
  obtain ⟨product, hproduct, hlength, hvalue⟩ := Limbs.multiplyRows_spec [0, 0, 0, 0] (limbsOfU128 left)
    (limbsOfU128 right) (by simp [limbsOfU128]) (by
      rw [value_limbsOfU128 hleft, value_limbsOfU128 hright]
      simpa [Limbs.value, Limbs.weight] using hlt)
  rw [value_limbsOfU128 hleft, value_limbsOfU128 hright] at hvalue
  refine ⟨⟨product, hlength⟩, ?_, by simpa [toNat, Limbs.value] using hvalue⟩
  simp only [multiplyU128, hproduct]
  exact dif_pos hlength

/-- A sum below 2^256 is exact. -/
theorem checkedAdd_spec (self other : U256) (h : self.toNat + other.toNat < 2 ^ 256) :
    ∃ sum, self.checkedAdd other = some sum ∧ sum.toNat = self.toNat + other.toNat := by
  have hlength : self.limbs.length = other.limbs.length := by rw [self.length_limbs, other.length_limbs]
  have hvalue := Limbs.value_add hlength false
  have hweight : Limbs.weight self.limbs.length = 2 ^ 256 := by rw [self.length_limbs, Limbs.weight]
  rw [hweight, Bool.toNat_false, Nat.add_zero] at hvalue
  have hcarry : (Limbs.add self.limbs other.limbs false).2 = false := by
    rcases hc : (Limbs.add self.limbs other.limbs false).2 with _ | _
    · rfl
    · rw [hc, Bool.toNat_true] at hvalue
      unfold toNat at h
      omega
  rw [hcarry, Bool.toNat_false, Nat.mul_zero, Nat.add_zero] at hvalue
  refine ⟨⟨(Limbs.add self.limbs other.limbs false).1, by
    rw [Limbs.length_add hlength, self.length_limbs]⟩, ?_, hvalue⟩
  simp only [checkedAdd, hcarry, Bool.false_eq_true, if_false]

/-- The comparison is the one of the numbers. -/
theorem magnitudeCmp_eq (self other : U256) : self.magnitudeCmp other = compare self.toNat other.toNat :=
  Limbs.compareTop_eq (by rw [self.length_limbs, other.length_limbs])

/-- A difference with the smaller number is exact. -/
theorem checkedSub_spec (self other : U256) (h : other.toNat ≤ self.toNat) :
    ∃ difference, self.checkedSub other = some difference ∧ difference.toNat = self.toNat - other.toNat := by
  have hlength : self.limbs.length = other.limbs.length := by rw [self.length_limbs, other.length_limbs]
  have hvalue := Limbs.value_sub hlength false
  have hlt := Limbs.value_lt (Limbs.sub self.limbs other.limbs false).1
  rw [Limbs.length_sub hlength] at hlt
  have hweight : Limbs.weight self.limbs.length = 2 ^ 256 := by rw [self.length_limbs, Limbs.weight]
  rw [hweight, Bool.toNat_false, Nat.add_zero] at hvalue
  rw [hweight] at hlt
  have hborrow : (Limbs.sub self.limbs other.limbs false).2 = false := by
    rcases hb : (Limbs.sub self.limbs other.limbs false).2 with _ | _
    · rfl
    · rw [hb, Bool.toNat_true] at hvalue
      unfold toNat at h
      omega
  rw [hborrow, Bool.toNat_false, Nat.mul_zero, Nat.add_zero] at hvalue
  refine ⟨⟨(Limbs.sub self.limbs other.limbs false).1, by
    rw [Limbs.length_sub hlength, self.length_limbs]⟩, ?_, ?_⟩
  · have hcmp : self.magnitudeCmp other ≠ .lt := by
      rw [magnitudeCmp_eq, Ne, Nat.compare_eq_lt]
      omega
    unfold checkedSub
    split
    · rename_i hlt'
      exact absurd hlt' hcmp
    · rfl
  · exact Nat.eq_sub_of_add_eq hvalue

/-- A multiple below 2^256 is exact. -/
theorem checkedMulU64_spec (self : U256) (multiplier : UInt64) (h : self.toNat * multiplier.toNat < 2 ^ 256) :
    ∃ product, self.checkedMulU64 multiplier = some product ∧ product.toNat = self.toNat * multiplier.toNat := by
  have hvalue := Limbs.value_mulSmall self.limbs multiplier 0 (by norm_num)
  have hweight : Limbs.weight self.limbs.length = 2 ^ 256 := by rw [self.length_limbs, Limbs.weight]
  rw [hweight, Nat.add_zero] at hvalue
  have hcarry : (Limbs.mulSmall self.limbs multiplier 0).2 = 0 := by
    unfold toNat at h
    omega
  rw [hcarry, Nat.mul_zero, Nat.add_zero] at hvalue
  refine ⟨⟨(Limbs.mulSmall self.limbs multiplier 0).1, by
    rw [Limbs.length_mulSmall, self.length_limbs]⟩, ?_, hvalue⟩
  simp only [checkedMulU64, hcarry, if_true]

/-- A multiple by a power of ten below 2^256 is exact. -/
theorem checkedMulPowerOfTen_spec (self : U256) (power : Nat) (h : self.toNat * 10 ^ power < 2 ^ 256) :
    ∃ product, self.checkedMulPowerOfTen power = some product ∧ product.toNat = self.toNat * 10 ^ power := by
  induction power generalizing self with
  | zero => exact ⟨self, rfl, by rw [pow_zero, Nat.mul_one]⟩
  | succ power ih =>
    have hpow : self.toNat * 10 ^ (power + 1) = self.toNat * 10 * 10 ^ power := by ring
    have hone : 1 ≤ 10 ^ power := Nat.one_le_pow _ _ (by norm_num)
    have hten : self.toNat * 10 ≤ self.toNat * 10 * 10 ^ power := Nat.le_mul_of_pos_right _ hone
    obtain ⟨next, hnext, hnextvalue⟩ := checkedMulU64_spec self 10 (by
      change self.toNat * 10 < 2 ^ 256
      omega)
    change next.toNat = self.toNat * 10 at hnextvalue
    obtain ⟨product, hproduct, hvalue⟩ := ih next (by rw [hnextvalue]; omega)
    refine ⟨product, ?_, by rw [hvalue, hnextvalue, hpow]⟩
    simp only [checkedMulPowerOfTen, hnext, Option.bind_eq_bind, Option.bind_some, hproduct]

theorem divRemU64_spec (self : U256) (divisor : UInt64) (h : 0 < divisor.toNat) :
    (self.divRemU64 divisor).1.toNat = self.toNat / divisor.toNat ∧
      (self.divRemU64 divisor).2 = self.toNat % divisor.toNat := by
  obtain ⟨hrem, hvalue⟩ := Limbs.value_divSmall self.limbs h
  have hunique := (Nat.div_mod_unique h).2 ⟨show (Limbs.divSmall self.limbs divisor).2 +
      divisor.toNat * Limbs.value (Limbs.divSmall self.limbs divisor).1 = self.toNat by
    rw [toNat, hvalue, Nat.mul_comm]
    omega, hrem⟩
  exact ⟨hunique.1.symm, hunique.2.symm⟩

/-! ## Rounding -/

/-- After the digits removed so far: the quotient, whether any digit removed was not zero, and the last digit of the power. -/
structure Removal.Removed (dividend : U256) (power digits : Nat) (state : Removal) : Prop where
  quotient : state.quotient.toNat = dividend.toNat / 10 ^ digits
  sticky : state.sticky = true ↔ dividend.toNat % 10 ^ min digits (power - 1) ≠ 0
  roundDigit : 0 < digits → digits = power → state.roundDigit = dividend.toNat / 10 ^ (power - 1) % 10

/-- Each digit is removed from the quotient. -/
theorem Removal.Removed.step {dividend : U256} {power digits : Nat} {state : Removal} (h : Removed dividend power digits state)
    (hdigits : digits < power) : Removed dividend power (digits + 1) (state.step power digits) := by
  obtain ⟨hquotient, hremainder⟩ := divRemU64_spec state.quotient 10 (by decide)
  have hten : (10 : UInt64).toNat = 10 := rfl
  have hnext : dividend.toNat / 10 ^ digits / 10 = dividend.toNat / 10 ^ (digits + 1) := by
    rw [Nat.div_div_eq_div_mul, pow_succ]
  rw [hten, h.quotient] at hquotient hremainder
  rw [hnext] at hquotient
  unfold Removal.step
  by_cases hlast : digits + 1 = power
  · rw [if_pos hlast]
    refine ⟨hquotient, ?_, ?_⟩
    · rw [h.sticky, show min digits (power - 1) = min (digits + 1) (power - 1) by omega]
    · intro _ _
      rw [show power - 1 = digits by omega]
      exact hremainder
  · rw [if_neg hlast]
    refine ⟨hquotient, ?_, fun _ heq => absurd heq hlast⟩
    rw [show min (digits + 1) (power - 1) = digits + 1 by omega, pow_succ, Nat.mod_mul, Bool.or_eq_true, h.sticky,
      show min digits (power - 1) = digits by omega, decide_eq_true_eq, hremainder]
    have hpos : 0 < 10 ^ digits := by positivity
    rw [← not_and_or, not_iff_not, Nat.add_eq_zero_iff, Nat.mul_eq_zero]
    omega

/-- The whole run of digits. -/
theorem Removal.removed_range (dividend : U256) (power digits : Nat) (h : digits ≤ power) :
    Removed dividend power digits ((List.range digits).foldl (Removal.step power) ⟨dividend, false, 0⟩) := by
  induction digits with
  | zero =>
    refine ⟨by rw [pow_zero, Nat.div_one]; rfl, ?_, fun hpos => absurd hpos (by omega)⟩
    simp [Nat.mod_one]
  | succ digits ih =>
    rw [List.range_succ, List.foldl_append]
    exact (ih (by omega)).step (by omega)

/-- The quotient by a power of ten is rounded half to even, and the rounding never fails. -/
theorem roundDivPowerOfTen_spec (dividend : U256) (power : Nat) :
    ∃ rounded, dividend.roundDivPowerOfTen power = some rounded ∧
      rounded.toNat = divHalfEven dividend.toNat (10 ^ power) := by
  rcases power with _ | power
  · exact ⟨dividend, rfl, by simp [divHalfEven, Nat.mod_one]⟩
  · have hrun := Removal.removed_range dividend (power + 1) (power + 1) (Nat.le_refl _)
    unfold roundDivPowerOfTen
    rw [if_neg (by omega)]
    generalize (List.range (power + 1)).foldl (Removal.step (power + 1)) ⟨dividend, false, 0⟩ = state at hrun
    have hround := hrun.roundDigit (by omega) rfl
    have hsticky := hrun.sticky
    rw [Nat.add_sub_cancel] at hround hsticky
    rw [show min (power + 1) power = power by omega] at hsticky
    have hodd : state.quotient.limb 0 &&& 1 ≠ 0 ↔ dividend.toNat / 10 ^ (power + 1) % 2 ≠ 0 := by
      rw [← hrun.quotient, toNat_eq_limbs, Ne, ← UInt64.toNat_inj, UInt64.toNat_and, UInt64.toNat_one,
        Nat.and_one_is_mod, UInt64.toNat_zero]
      omega
    rw [divHalfEven_pow_succ]
    simp only [hround, hsticky, hodd]
    by_cases hup : 5 < dividend.toNat / 10 ^ power % 10 ∨ dividend.toNat / 10 ^ power % 10 = 5 ∧
        (dividend.toNat % 10 ^ power ≠ 0 ∨ dividend.toNat / 10 ^ (power + 1) % 2 ≠ 0)
    · rw [if_pos hup, if_pos hup]
      have hone : (fromU128 1).toNat = 1 := toNat_fromU128 (by norm_num)
      have hlt := dividend.toNat_lt
      have hten : dividend.toNat / 10 ^ (power + 1) ≤ dividend.toNat / 10 :=
        Nat.div_le_div_left (Nat.le_self_pow (by omega) 10) (by norm_num)
      obtain ⟨sum, hsum, hvalue⟩ := checkedAdd_spec state.quotient (fromU128 1) (by
        rw [hrun.quotient, hone]
        omega)
      exact ⟨sum, hsum, by rw [hvalue, hrun.quotient, hone]⟩
    · rw [if_neg hup, if_neg hup]
      exact ⟨state.quotient, rfl, hrun.quotient⟩

/-- The test of the mantissa is the bound of 96 bits. -/
theorem fitsDecimalMantissa_iff (self : U256) : self.fitsDecimalMantissa = true ↔ self.toNat < 2 ^ 96 := by
  have h0 := (self.limb 0).toNat_lt
  simp only [fitsDecimalMantissa, Bool.and_eq_true, decide_eq_true_eq, ← UInt64.toNat_inj, UInt64.toNat_zero,
    toNat_eq_limbs]
  omega

/-- A mantissa of 96 bits is read back whole. -/
theorem toU128_eq {self : U256} (h : self.toNat < 2 ^ 96) : self.toU128 = self.toNat := by
  have h0 := (self.limb 0).toNat_lt
  rw [toNat_eq_limbs] at h
  rw [toU128, Nat.or_comm, ← Nat.shiftLeft_add_eq_or_of_lt h0, Nat.shiftLeft_eq, toNat_eq_limbs]
  omega

end U256
end P5136
