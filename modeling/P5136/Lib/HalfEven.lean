import Mathlib.Algebra.Order.Floor.Semifield
import Mathlib.Tactic.FieldSimp
import Mathlib.Tactic.IntervalCases
import Mathlib.Tactic.Ring

/-!
# Rounding to the nearest number, ties to even

`halfEven` rounds a nonnegative element of an ordered field to a natural number. On a quotient of natural numbers it is computed
from the quotient and the remainder (`divHalfEven`), and on a quotient by a power of ten from the digit after the last one kept
and whether anything follows that digit.
-/

variable {K : Type*} [Field K] [LinearOrder K] [FloorSemiring K]

/-- The natural number nearest to a nonnegative element of the field; of two equally near, the even one. -/
def halfEven (r : K) : ℕ :=
  if r - ⌊r⌋₊ < 1 / 2 ∨ r - ⌊r⌋₊ = 1 / 2 ∧ ⌊r⌋₊ % 2 = 0 then ⌊r⌋₊ else ⌊r⌋₊ + 1

/-- The quotient of natural numbers, rounded to the nearest number, ties to even. -/
def divHalfEven (n d : ℕ) : ℕ :=
  if 2 * (n % d) < d ∨ 2 * (n % d) = d ∧ n / d % 2 = 0 then n / d else n / d + 1

theorem floor_le_halfEven (r : K) : ⌊r⌋₊ ≤ halfEven r := by
  unfold halfEven
  split <;> omega

theorem halfEven_le_floor_add_one (r : K) : halfEven r ≤ ⌊r⌋₊ + 1 := by
  unfold halfEven
  split <;> omega

variable [IsStrictOrderedRing K]

/-- Rounding keeps the order. -/
theorem halfEven_mono {r s : K} (h : r ≤ s) : halfEven r ≤ halfEven s := by
  have hfloor := Nat.floor_le_floor h
  have hr := halfEven_le_floor_add_one r
  have hs := floor_le_halfEven s
  rcases Nat.lt_or_eq_of_le hfloor with hlt | heq
  · omega
  · unfold halfEven
    rw [heq]
    by_cases hup : s - ⌊s⌋₊ < 1 / 2 ∨ s - ⌊s⌋₊ = 1 / 2 ∧ ⌊s⌋₊ % 2 = 0
    · rw [if_pos hup, if_pos]
      rcases hup with hlt | ⟨htie, heven⟩
      · left
        linarith
      · rcases lt_or_eq_of_le (show r - ⌊s⌋₊ ≤ 1 / 2 by linarith) with hlt | heq'
        · exact Or.inl hlt
        · exact Or.inr ⟨heq', heven⟩
    · rw [if_neg hup]
      split <;> omega

/-- Rounding a quotient of natural numbers looks at the quotient and the remainder only. -/
theorem halfEven_div (n : ℕ) {d : ℕ} (hd : 0 < d) : halfEven ((n : K) / d) = divHalfEven n d := by
  have hfloor : ⌊(n : K) / d⌋₊ = n / d := Nat.floor_div_eq_div n d
  have hdK : (0 : K) < d := Nat.cast_pos.2 hd
  have hsplit : (n : K) / d - (n / d : ℕ) = (n % d : ℕ) / d := by
    have h : (d : K) * (n / d : ℕ) + (n % d : ℕ) = n := by
      exact_mod_cast congrArg (Nat.cast : ℕ → K) (Nat.div_add_mod n d)
    field_simp
    linarith
  have hlt : ((n % d : ℕ) : K) / d < 1 / 2 ↔ 2 * (n % d) < d := by
    rw [div_lt_div_iff₀ hdK two_pos, one_mul, mul_comm]
    exact_mod_cast Iff.rfl
  have heq : ((n % d : ℕ) : K) / d = 1 / 2 ↔ 2 * (n % d) = d := by
    rw [div_eq_div_iff hdK.ne' two_ne_zero, one_mul, mul_comm]
    exact_mod_cast Iff.rfl
  simp only [halfEven, divHalfEven, hfloor, hsplit, hlt, heq]

/-- Rounding a natural number changes nothing. -/
@[simp] theorem halfEven_natCast (n : ℕ) : halfEven (n : K) = n := by
  have h := halfEven_div (K := K) n Nat.one_pos
  rw [Nat.cast_one, div_one] at h
  rw [h]
  simp [divHalfEven, Nat.mod_one]

/-- No natural number is nearer than the rounded one, and where another one is as near, the rounded one is even. -/
theorem halfEven_nearest {r : K} (h : 0 ≤ r) (n : ℕ) :
    |r - halfEven r| ≤ |r - n| ∧ (|r - halfEven r| = |r - n| → n = halfEven r ∨ halfEven r % 2 = 0) := by
  have hfloor := Nat.floor_le h
  have hlt := Nat.lt_floor_add_one r
  have hbelow : n ≤ ⌊r⌋₊ → |r - n| = r - n := by
    intro hn
    have hcast : (n : K) ≤ ⌊r⌋₊ := by exact_mod_cast hn
    exact abs_of_nonneg (by linarith)
  have habove : ⌊r⌋₊ + 1 ≤ n → |r - n| = n - r := by
    intro hn
    have hcast : (⌊r⌋₊ : K) + 1 ≤ n := by exact_mod_cast hn
    rw [abs_of_nonpos (by linarith)]
    ring
  unfold halfEven
  by_cases hdown : r - ⌊r⌋₊ < 1 / 2 ∨ r - ⌊r⌋₊ = 1 / 2 ∧ ⌊r⌋₊ % 2 = 0
  · -- rounded down: the numbers above are at least as far as the floor
    rw [if_pos hdown, abs_of_nonneg (show (0 : K) ≤ r - ⌊r⌋₊ by linarith)]
    have hhalf : r - ⌊r⌋₊ ≤ 1 / 2 := by
      rcases hdown with hless | ⟨htie, -⟩ <;> linarith
    rcases Nat.lt_or_ge ⌊r⌋₊ n with hn | hn
    · have hcast : (⌊r⌋₊ : K) + 1 ≤ n := by exact_mod_cast hn
      rw [habove hn]
      refine ⟨by linarith, fun htie => .inr ?_⟩
      rcases hdown with hless | ⟨-, heven⟩
      · linarith
      · exact heven
    · have hcast : (n : K) ≤ ⌊r⌋₊ := by exact_mod_cast hn
      rw [hbelow hn]
      refine ⟨by linarith, fun htie => .inl ?_⟩
      have heq : (n : K) = ⌊r⌋₊ := by linarith
      exact_mod_cast heq
  · -- rounded up: the numbers below are at least as far as the next one
    have hnext : |r - (⌊r⌋₊ + 1 : ℕ)| = ⌊r⌋₊ + 1 - r := by
      rw [abs_of_nonpos (by push_cast; linarith)]
      push_cast
      ring
    rw [not_or, not_and, not_lt] at hdown
    obtain ⟨hhalf, hodd⟩ := hdown
    rw [if_neg (by rw [not_or, not_and, not_lt]; exact ⟨hhalf, hodd⟩), hnext]
    rcases Nat.lt_or_ge ⌊r⌋₊ n with hn | hn
    · have hcast : (⌊r⌋₊ : K) + 1 ≤ n := by exact_mod_cast hn
      rw [habove hn]
      refine ⟨by linarith, fun htie => .inl ?_⟩
      have heq : (n : K) = (⌊r⌋₊ + 1 : ℕ) := by
        push_cast
        linarith
      exact_mod_cast heq
    · have hcast : (n : K) ≤ ⌊r⌋₊ := by exact_mod_cast hn
      rw [hbelow hn]
      refine ⟨by linarith, fun htie => .inr ?_⟩
      have hnot := hodd (by linarith)
      omega

/-- A number less than half of one rounds to zero. -/
theorem halfEven_eq_zero {r : K} (h : r < 1 / 2) : halfEven r = 0 := by
  have hfloor : ⌊r⌋₊ = 0 := Nat.floor_eq_zero.2 (by linarith)
  simp only [halfEven, hfloor, Nat.cast_zero, sub_zero, h, true_or, if_true]

/-- Rounding a quotient by a power of ten looks at the digit after the last one kept and at whether anything follows it. -/
theorem divHalfEven_pow_succ (n k : ℕ) :
    divHalfEven n (10 ^ (k + 1)) =
      if 5 < n / 10 ^ k % 10 ∨ n / 10 ^ k % 10 = 5 ∧ (n % 10 ^ k ≠ 0 ∨ n / 10 ^ (k + 1) % 2 ≠ 0)
      then n / 10 ^ (k + 1) + 1 else n / 10 ^ (k + 1) := by
  have hmod : n % 10 ^ (k + 1) = n % 10 ^ k + 10 ^ k * (n / 10 ^ k % 10) := by
    rw [pow_succ, Nat.mod_mul]
  have hrest : n % 10 ^ k < 10 ^ k := Nat.mod_lt _ (by positivity)
  have hdigit : n / 10 ^ k % 10 < 10 := Nat.mod_lt _ (by norm_num)
  unfold divHalfEven
  rw [hmod, pow_succ]
  generalize n / 10 ^ k % 10 = digit at *
  generalize n % 10 ^ k = rest at *
  generalize 10 ^ k = p at *
  interval_cases digit <;> (split <;> split <;> omega)
