import Mathlib.Tactic.Ring

/-!
# Numbers in limbs

Numbers as lists of 64-bit limbs, the least significant first, and the schoolbook operations on them: addition with a carry,
subtraction with a borrow, multiplication by a limb and by a number, division by a limb, and comparison from the top. Products of
limbs are computed in 128 bits.
-/

namespace Limbs

open List

/-- The number that limbs stand for. -/
def value : List UInt64 → Nat
  | [] => 0
  | limb :: limbs => limb.toNat + 2 ^ 64 * value limbs

/-- The numbers that so many limbs stand for are below this. -/
def weight (n : Nat) : Nat := 2 ^ (64 * n)

@[simp] theorem weight_zero : weight 0 = 1 := rfl

theorem weight_succ (n : Nat) : weight (n + 1) = 2 ^ 64 * weight n := by
  simp only [weight, Nat.mul_add, Nat.pow_add]
  ring

/-- Limbs stand for a number below the weight of their count. -/
theorem value_lt (limbs : List UInt64) : value limbs < weight limbs.length := by
  induction limbs with
  | nil => simp [value]
  | cons limb limbs ih =>
    have hlimb := limb.toNat_lt
    rw [length_cons, weight_succ, value]
    omega

/-- Limbs of one count with one value are the same limbs. -/
theorem value_inj {as bs : List UInt64} (hlength : as.length = bs.length) (h : value as = value bs) : as = bs := by
  induction as generalizing bs with
  | nil => exact (length_eq_zero_iff.1 hlength.symm).symm
  | cons a as ih =>
    obtain ⟨b, bs, rfl⟩ := exists_cons_of_length_eq_add_one hlength.symm
    have ha := a.toNat_lt
    have hb := b.toNat_lt
    simp only [value] at h
    have hlimb : a = b := UInt64.toNat_inj.1 (by omega)
    rw [hlimb, ih (by simpa using hlength) (by omega)]

/-- A number in 128 bits. -/
def wide (n : Nat) : Nat := n % 2 ^ 128

theorem wide_of_lt {n : Nat} (h : n < 2 ^ 128) : wide n = n := Nat.mod_eq_of_lt h

/-- The low limb and the rest of a number make the number. -/
theorem ofNat_add (n : Nat) : (UInt64.ofNat n).toNat + 2 ^ 64 * (n / 2 ^ 64) = n := by
  rw [UInt64.toNat_ofNat']
  omega

/-! ## Addition and subtraction -/

def overflowingAdd (a b : UInt64) : UInt64 × Bool := (a + b, decide (2 ^ 64 ≤ a.toNat + b.toNat))

def overflowingSub (a b : UInt64) : UInt64 × Bool := (a - b, decide (a.toNat < b.toNat))

/-- A carry or a borrow as a limb. -/
def ofBool (carry : Bool) : UInt64 := if carry then 1 else 0

theorem overflowingAdd_value (a b : UInt64) :
    (overflowingAdd a b).1.toNat + 2 ^ 64 * (overflowingAdd a b).2.toNat = a.toNat + b.toNat := by
  have ha := a.toNat_lt
  have hb := b.toNat_lt
  simp only [overflowingAdd, UInt64.toNat_add]
  by_cases h : 2 ^ 64 ≤ a.toNat + b.toNat
  · simp only [h, decide_true, Bool.toNat_true]
    omega
  · simp only [h, decide_false, Bool.toNat_false]
    omega

theorem overflowingSub_value (a b : UInt64) :
    (overflowingSub a b).1.toNat + b.toNat = a.toNat + 2 ^ 64 * (overflowingSub a b).2.toNat := by
  have ha := a.toNat_lt
  have hb := b.toNat_lt
  simp only [overflowingSub, UInt64.toNat_sub]
  by_cases h : a.toNat < b.toNat
  · simp only [h, decide_true, Bool.toNat_true]
    omega
  · simp only [h, decide_false, Bool.toNat_false]
    omega

theorem toNat_ofBool (carry : Bool) : (ofBool carry).toNat = carry.toNat := by
  cases carry <;> rfl

/-- The sum of two numbers of as many limbs, and the carry out of it. -/
def add : List UInt64 → List UInt64 → Bool → List UInt64 × Bool
  | a :: as, b :: bs, carry =>
    let partialSum := overflowingAdd a b
    let sum := overflowingAdd partialSum.1 (ofBool carry)
    let rest := add as bs (partialSum.2 || sum.2)
    (sum.1 :: rest.1, rest.2)
  | _, _, carry => ([], carry)

/-- The difference of two numbers of as many limbs, and the borrow out of it. -/
def sub : List UInt64 → List UInt64 → Bool → List UInt64 × Bool
  | a :: as, b :: bs, borrow =>
    let partialDifference := overflowingSub a b
    let difference := overflowingSub partialDifference.1 (ofBool borrow)
    let rest := sub as bs (partialDifference.2 || difference.2)
    (difference.1 :: rest.1, rest.2)
  | _, _, borrow => ([], borrow)

/-- At most one of the two additions of a limb overflows. -/
theorem carry_or (a b : UInt64) (carry : Bool) :
    let partialSum := overflowingAdd a b
    let sum := overflowingAdd partialSum.1 (ofBool carry)
    sum.1.toNat + 2 ^ 64 * (partialSum.2 || sum.2).toNat = a.toNat + b.toNat + carry.toNat := by
  intro partialSum sum
  have hp := overflowingAdd_value a b
  have hs := overflowingAdd_value partialSum.1 (ofBool carry)
  have ha := a.toNat_lt
  have hb := b.toNat_lt
  have hc := carry.toNat_le
  have hlimb := sum.1.toNat_lt
  rw [toNat_ofBool] at hs
  have hor : (partialSum.2 || sum.2).toNat = partialSum.2.toNat + sum.2.toNat := by
    rcases hp2 : partialSum.2 with _ | _ <;> rcases hs2 : sum.2 with _ | _
    · rfl
    · rfl
    · rfl
    · exfalso
      change partialSum.1.toNat + 2 ^ 64 * partialSum.2.toNat = _ at hp
      change sum.1.toNat + 2 ^ 64 * sum.2.toNat = _ at hs
      simp only [hp2, hs2, Bool.toNat_true] at hp hs
      omega
  rw [hor]
  change partialSum.1.toNat + 2 ^ 64 * partialSum.2.toNat = _ at hp
  change sum.1.toNat + 2 ^ 64 * sum.2.toNat = _ at hs
  omega

/-- At most one of the two subtractions of a limb overflows. -/
theorem borrow_or (a b : UInt64) (borrow : Bool) :
    let partialDifference := overflowingSub a b
    let difference := overflowingSub partialDifference.1 (ofBool borrow)
    difference.1.toNat + b.toNat + borrow.toNat =
      a.toNat + 2 ^ 64 * (partialDifference.2 || difference.2).toNat := by
  intro partialDifference difference
  have hp := overflowingSub_value a b
  have hs := overflowingSub_value partialDifference.1 (ofBool borrow)
  have ha := a.toNat_lt
  have hb := b.toNat_lt
  have hc := borrow.toNat_le
  have hlimb := difference.1.toNat_lt
  rw [toNat_ofBool] at hs
  change partialDifference.1.toNat + b.toNat = a.toNat + 2 ^ 64 * partialDifference.2.toNat at hp
  change difference.1.toNat + borrow.toNat = partialDifference.1.toNat + 2 ^ 64 * difference.2.toNat at hs
  have hor : (partialDifference.2 || difference.2).toNat = partialDifference.2.toNat + difference.2.toNat := by
    rcases hp2 : partialDifference.2 with _ | _ <;> rcases hs2 : difference.2 with _ | _
    · rfl
    · rfl
    · rfl
    · exfalso
      simp only [hp2, hs2, Bool.toNat_true] at hp hs
      omega
  rw [hor]
  omega

@[simp] theorem length_add {as bs : List UInt64} (h : as.length = bs.length) (carry : Bool) :
    (add as bs carry).1.length = as.length := by
  induction as generalizing bs carry with
  | nil => simp [add]
  | cons a as ih =>
    obtain ⟨b, bs, rfl⟩ := exists_cons_of_length_eq_add_one h.symm
    simp only [add, length_cons]
    rw [ih (by simpa using h)]

/-- The sum and its carry are the sum of the numbers. -/
theorem value_add {as bs : List UInt64} (h : as.length = bs.length) (carry : Bool) :
    value (add as bs carry).1 + weight as.length * (add as bs carry).2.toNat =
      value as + value bs + carry.toNat := by
  induction as generalizing bs carry with
  | nil =>
    obtain rfl := length_eq_zero_iff.1 h.symm
    simp [add, value]
  | cons a as ih =>
    obtain ⟨b, bs, rfl⟩ := exists_cons_of_length_eq_add_one h.symm
    have hlimb := carry_or a b carry
    have hrest := ih (show as.length = bs.length by simpa using h)
      ((overflowingAdd a b).2 || (overflowingAdd (overflowingAdd a b).1 (ofBool carry)).2)
    simp only [add, value, length_cons, weight_succ, Nat.mul_assoc] at hlimb hrest ⊢
    omega

@[simp] theorem length_sub {as bs : List UInt64} (h : as.length = bs.length) (borrow : Bool) :
    (sub as bs borrow).1.length = as.length := by
  induction as generalizing bs borrow with
  | nil => simp [sub]
  | cons a as ih =>
    obtain ⟨b, bs, rfl⟩ := exists_cons_of_length_eq_add_one h.symm
    simp only [sub, length_cons]
    rw [ih (by simpa using h)]

/-- The difference is the difference of the numbers, up to the borrow. -/
theorem value_sub {as bs : List UInt64} (h : as.length = bs.length) (borrow : Bool) :
    value (sub as bs borrow).1 + value bs + borrow.toNat =
      value as + weight as.length * (sub as bs borrow).2.toNat := by
  induction as generalizing bs borrow with
  | nil =>
    obtain rfl := length_eq_zero_iff.1 h.symm
    simp [sub, value]
  | cons a as ih =>
    obtain ⟨b, bs, rfl⟩ := exists_cons_of_length_eq_add_one h.symm
    have hlimb := borrow_or a b borrow
    have hrest := ih (show as.length = bs.length by simpa using h)
      ((overflowingSub a b).2 || (overflowingSub (overflowingSub a b).1 (ofBool borrow)).2)
    simp only [sub, value, length_cons, weight_succ, Nat.mul_assoc] at hlimb hrest ⊢
    omega

/-! ## Multiplication -/

/-- A product of limbs with two more limbs added stays within 128 bits. -/
theorem mul_add_lt {a b : Nat} (c : Nat) {d : Nat} (ha : a < 2 ^ 64) (hb : b < 2 ^ 64) (hc : c < 2 ^ 64) (hd : d < 2 ^ 64) :
    c + a * b + d < 2 ^ 128 := by
  have h : a * b ≤ (2 ^ 64 - 1) * (2 ^ 64 - 1) := Nat.mul_le_mul (by omega) (by omega)
  omega

/-- The product of a number with one limb and a carry added, and the carry out of it. -/
def mulSmall : List UInt64 → UInt64 → Nat → List UInt64 × Nat
  | [], _, carry => ([], carry)
  | limb :: limbs, multiplier, carry =>
    let product := wide (limb.toNat * multiplier.toNat + carry)
    let rest := mulSmall limbs multiplier (product / 2 ^ 64)
    (UInt64.ofNat product :: rest.1, rest.2)

@[simp] theorem length_mulSmall (limbs : List UInt64) (multiplier : UInt64) (carry : Nat) :
    (mulSmall limbs multiplier carry).1.length = limbs.length := by
  induction limbs generalizing carry with
  | nil => rfl
  | cons limb limbs ih => simp only [mulSmall, length_cons, ih]

/-- The product and its carry are the product of the numbers. -/
theorem value_mulSmall (limbs : List UInt64) (multiplier : UInt64) (carry : Nat) (h : carry < 2 ^ 64) :
    value (mulSmall limbs multiplier carry).1 + weight limbs.length * (mulSmall limbs multiplier carry).2 =
      value limbs * multiplier.toNat + carry := by
  induction limbs generalizing carry with
  | nil => simp [mulSmall, value]
  | cons limb limbs ih =>
    have hlt := mul_add_lt 0 limb.toNat_lt multiplier.toNat_lt (by omega) h
    rw [Nat.zero_add] at hlt
    have hlimb := ofNat_add (limb.toNat * multiplier.toNat + carry)
    have hrest := ih ((limb.toNat * multiplier.toNat + carry) / 2 ^ 64) (by omega)
    simp only [mulSmall, value, length_cons, weight_succ, Nat.mul_assoc, wide_of_lt hlt, Nat.add_mul]
    omega

/-- Adds a carry to a number, as far as it goes; there is none when it runs over the top. -/
def propagate : List UInt64 → Nat → Option (List UInt64)
  | limbs, 0 => some limbs
  | [], _ + 1 => none
  | limb :: limbs, carry + 1 =>
    let sum := wide (limb.toNat + (carry + 1))
    (propagate limbs (sum / 2 ^ 64)).map (UInt64.ofNat sum :: ·)

/-- A carry that the number has room for does not run over the top, and is added to it. -/
theorem propagate_spec (limbs : List UInt64) (carry : Nat) (hcarry : carry < 2 ^ 64)
    (hfits : value limbs + carry < weight limbs.length) :
    ∃ sum, propagate limbs carry = some sum ∧ sum.length = limbs.length ∧ value sum = value limbs + carry := by
  induction limbs generalizing carry with
  | nil =>
    have h0 : carry = 0 := by simpa [value] using hfits
    subst h0
    exact ⟨[], by simp [propagate], rfl, rfl⟩
  | cons limb limbs ih =>
    rcases carry with _ | carry
    · exact ⟨limb :: limbs, by simp [propagate], rfl, rfl⟩
    · have hlimb := limb.toNat_lt
      rw [length_cons, weight_succ, value] at hfits
      obtain ⟨sum, hsum, hlength, hvalue⟩ := ih ((limb.toNat + (carry + 1)) / 2 ^ 64) (by omega) (by omega)
      have hparts := ofNat_add (limb.toNat + (carry + 1))
      refine ⟨UInt64.ofNat (limb.toNat + (carry + 1)) :: sum, ?_, by simp only [length_cons, hlength], ?_⟩
      · simp only [propagate, wide_of_lt (show limb.toNat + (carry + 1) < 2 ^ 128 by omega), hsum, Option.map_some]
      · simp only [value, hvalue]
        omega

/-- Adds to a number the product of another with one limb, and a carry; there is none when it runs over the top. -/
def mulAdd : List UInt64 → List UInt64 → UInt64 → Nat → Option (List UInt64)
  | limbs, [], _, carry => propagate limbs carry
  | [], _ :: _, _, _ => none
  | limb :: limbs, right :: rights, left, carry =>
    let sum := wide (limb.toNat + left.toNat * right.toNat + carry)
    (mulAdd limbs rights left (sum / 2 ^ 64)).map (UInt64.ofNat sum :: ·)

/-- A product that the number has room for does not run over the top, and is added to it. -/
theorem mulAdd_spec (limbs rights : List UInt64) (left : UInt64) (carry : Nat) (hcarry : carry < 2 ^ 64)
    (hlength : rights.length ≤ limbs.length)
    (hfits : value limbs + left.toNat * value rights + carry < weight limbs.length) :
    ∃ sum, mulAdd limbs rights left carry = some sum ∧ sum.length = limbs.length ∧
      value sum = value limbs + left.toNat * value rights + carry := by
  induction rights generalizing limbs carry with
  | nil =>
    simp only [value, Nat.mul_zero, Nat.add_zero] at hfits ⊢
    cases limbs <;> exact propagate_spec _ _ hcarry hfits
  | cons right rights ih =>
    rcases limbs with _ | ⟨limb, limbs⟩
    · simp at hlength
    · have hlt := mul_add_lt limb.toNat left.toNat_lt right.toNat_lt limb.toNat_lt hcarry
      have hdistrib : left.toNat * (right.toNat + 2 ^ 64 * value rights) =
          left.toNat * right.toNat + 2 ^ 64 * (left.toNat * value rights) := by ring
      simp only [value, length_cons, weight_succ, hdistrib] at hfits hlength ⊢
      obtain ⟨sum, hsum, hlen, hvalue⟩ := ih limbs
        ((limb.toNat + left.toNat * right.toNat + carry) / 2 ^ 64) (by omega) (by omega) (by omega)
      have hparts := ofNat_add (limb.toNat + left.toNat * right.toNat + carry)
      refine ⟨UInt64.ofNat (limb.toNat + left.toNat * right.toNat + carry) :: sum, ?_, by
        simp only [length_cons, hlen], ?_⟩
      · simp only [mulAdd, wide_of_lt hlt, hsum, Option.map_some]
      · simp only [value, hvalue]
        omega

/-- Adds to a number the product of two others, row by row. -/
def multiplyRows : List UInt64 → List UInt64 → List UInt64 → Option (List UInt64)
  | limbs, [], _ => some limbs
  | limbs, left :: lefts, right =>
    match mulAdd limbs right left 0 with
    | none => none
    | some [] => some []
    | some (limb :: limbs) => (multiplyRows limbs lefts right).map (limb :: ·)

/-- A product of numbers that the number has room for does not run over the top, and is added to it. -/
theorem multiplyRows_spec (limbs lefts rights : List UInt64) (hlength : lefts.length + rights.length ≤ limbs.length)
    (hfits : value limbs + value lefts * value rights < weight limbs.length) :
    ∃ sum, multiplyRows limbs lefts rights = some sum ∧ sum.length = limbs.length ∧
      value sum = value limbs + value lefts * value rights := by
  induction lefts generalizing limbs with
  | nil => exact ⟨limbs, rfl, rfl, by simp [value]⟩
  | cons left lefts ih =>
    have hdistrib : (left.toNat + 2 ^ 64 * value lefts) * value rights =
        left.toNat * value rights + 2 ^ 64 * (value lefts * value rights) := by ring
    simp only [value, length_cons, hdistrib] at hfits hlength ⊢
    obtain ⟨row, hrow, hlen, hvalue⟩ := mulAdd_spec limbs rights left 0 (by omega) (by omega) (by omega)
    rcases limbs with _ | ⟨limb, limbs⟩
    · simp at hlength
    · rcases row with _ | ⟨low, row⟩
      · simp at hlen
      · have hrowlength : row.length = limbs.length := by simpa using hlen
        simp only [value, length_cons, weight_succ] at hvalue hfits hlength
        obtain ⟨sum, hsum, hsumlen, hsumvalue⟩ := ih row (by omega) (by
          rw [hrowlength]
          have := low.toNat_lt
          omega)
        refine ⟨low :: sum, by simp only [multiplyRows, hrow, hsum, Option.map_some], by
          simp only [length_cons, hsumlen, hrowlength], ?_⟩
        simp only [value, hsumvalue]
        omega

/-! ## Division and comparison -/

/-- The quotient of a number by one limb, from the top, and the remainder. -/
def divSmall : List UInt64 → UInt64 → List UInt64 × Nat
  | [], _ => ([], 0)
  | limb :: limbs, divisor =>
    let rest := divSmall limbs divisor
    let dividend := wide (rest.2 <<< 64) ||| limb.toNat
    (UInt64.ofNat (dividend / divisor.toNat) :: rest.1, dividend % divisor.toNat)

@[simp] theorem length_divSmall (limbs : List UInt64) (divisor : UInt64) :
    (divSmall limbs divisor).1.length = limbs.length := by
  induction limbs with
  | nil => rfl
  | cons limb limbs ih => simp only [divSmall, length_cons, ih]

/-- The quotient and the remainder of the numbers. -/
theorem value_divSmall (limbs : List UInt64) {divisor : UInt64} (h : 0 < divisor.toNat) :
    (divSmall limbs divisor).2 < divisor.toNat ∧
      value limbs = value (divSmall limbs divisor).1 * divisor.toNat + (divSmall limbs divisor).2 := by
  induction limbs with
  | nil => simpa [divSmall, value] using h
  | cons limb limbs ih =>
    obtain ⟨hrem, hvalue⟩ := ih
    have hdivisor := divisor.toNat_lt
    have hlimb := limb.toNat_lt
    have hdividend : wide ((divSmall limbs divisor).2 <<< 64) ||| limb.toNat =
        (divSmall limbs divisor).2 * 2 ^ 64 + limb.toNat := by
      rw [wide_of_lt (by rw [Nat.shiftLeft_eq]; omega), ← Nat.shiftLeft_add_eq_or_of_lt hlimb, Nat.shiftLeft_eq]
    have hquotient : ((divSmall limbs divisor).2 * 2 ^ 64 + limb.toNat) / divisor.toNat < 2 ^ 64 := by
      rw [Nat.div_lt_iff_lt_mul h]
      have := Nat.mul_le_mul_right (2 ^ 64) (show (divSmall limbs divisor).2 + 1 ≤ divisor.toNat from hrem)
      omega
    have hmod := Nat.div_add_mod ((divSmall limbs divisor).2 * 2 ^ 64 + limb.toNat) divisor.toNat
    rw [Nat.mul_comm] at hmod
    simp only [divSmall, value, hdividend, UInt64.toNat_ofNat', Nat.mod_eq_of_lt hquotient]
    refine ⟨Nat.mod_lt _ h, ?_⟩
    have hdistrib : (((divSmall limbs divisor).2 * 2 ^ 64 + limb.toNat) / divisor.toNat +
        2 ^ 64 * value (divSmall limbs divisor).1) * divisor.toNat =
        ((divSmall limbs divisor).2 * 2 ^ 64 + limb.toNat) / divisor.toNat * divisor.toNat +
        2 ^ 64 * (value (divSmall limbs divisor).1 * divisor.toNat) := by ring
    omega

/-- The comparison of two numbers of as many limbs, from the top. -/
def compareTop : List UInt64 → List UInt64 → Ordering
  | a :: as, b :: bs =>
    match compareTop as bs with
    | .eq => compare a b
    | ordering => ordering
  | _, _ => .eq

/-- Comparing from the top compares the numbers. -/
theorem compareTop_eq {as bs : List UInt64} (h : as.length = bs.length) :
    compareTop as bs = compare (value as) (value bs) := by
  induction as generalizing bs with
  | nil =>
    obtain rfl := length_eq_zero_iff.1 h.symm
    rfl
  | cons a as ih =>
    obtain ⟨b, bs, rfl⟩ := exists_cons_of_length_eq_add_one h.symm
    have ha := a.toNat_lt
    have hb := b.toNat_lt
    simp only [compareTop, ih (show as.length = bs.length by simpa using h), value]
    rcases hcompare : compare (value as) (value bs) with _ | _ | _
    · rw [Nat.compare_eq_lt] at hcompare
      exact (Nat.compare_eq_lt.2 (by omega)).symm
    · rw [Nat.compare_eq_eq] at hcompare
      rw [hcompare]
      simp only [compare, compareOfLessAndEq, UInt64.lt_iff_toNat_lt, ← UInt64.toNat_inj,
        Nat.add_lt_add_iff_right, Nat.add_right_cancel_iff]
    · rw [Nat.compare_eq_gt] at hcompare
      exact (Nat.compare_eq_gt.2 (by omega)).symm

end Limbs
