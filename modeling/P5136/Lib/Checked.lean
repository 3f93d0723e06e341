import Mathlib.Algebra.Ring.Int.Defs
import Mathlib.Algebra.Ring.Nat

/-!
# Checked arithmetic

Additions and multiplications of 64-bit sizes that report an overflow, the same of signed 16-bit numbers, and the conversions
between sizes and the signed 32-bit numbers of wire fields that report what does not fit.
-/

namespace Checked

/-- The sum of two sizes, when it is one. -/
def add (a b : Nat) : Option Nat := if a + b < 2 ^ 64 then some (a + b) else none

/-- The product of two sizes, when it is one. -/
def mul (a b : Nat) : Option Nat := if a * b < 2 ^ 64 then some (a * b) else none

/-- The difference of two sizes, when it is not negative. -/
def sub (a b : Nat) : Option Nat := if b ≤ a then some (a - b) else none

/-- The size a signed number is, when it is not negative. -/
def toSize (i : Int) : Option Nat := if 0 ≤ i then some i.toNat else none

/-- The signed 32-bit number a size is, when it is below `2 ^ 31`. -/
def toI32 (n : Nat) : Option Int := if n < 2 ^ 31 then some n else none

/-- The signed word a size is, when it is below `2 ^ 31`. -/
def toInt32 (n : Nat) : Option Int32 := if n < 2 ^ 31 then some (Int32.ofNat n) else none

/-- The size a signed word is, when it is not negative. -/
def ofInt32 (i : Int32) : Option Nat := toSize i.toInt

/-- A sum is returned exactly when it is a size. -/
@[simp] theorem add_eq_some {a b c : Nat} : add a b = some c ↔ a + b = c ∧ c < 2 ^ 64 := by
  unfold add
  split <;> simp <;> omega

/-- A product is returned exactly when it is a size. -/
@[simp] theorem mul_eq_some {a b c : Nat} : mul a b = some c ↔ a * b = c ∧ c < 2 ^ 64 := by
  unfold mul
  split <;> simp <;> omega

/-- A difference is returned exactly when it is not negative. -/
@[simp] theorem sub_eq_some {a b c : Nat} : sub a b = some c ↔ b ≤ a ∧ a - b = c := by
  unfold sub
  split <;> simp <;> omega

/-- A signed number is converted exactly to the size it is. -/
@[simp] theorem toSize_eq_some {i : Int} {n : Nat} : toSize i = some n ↔ i = (n : Int) := by
  unfold toSize
  split <;> simp <;> omega

/-- A size is converted exactly when it is below `2 ^ 31`. -/
@[simp] theorem toI32_eq_some {n : Nat} {i : Int} : toI32 n = some i ↔ i = (n : Int) ∧ n < 2 ^ 31 := by
  unfold toI32
  split <;> simp <;> omega

/-- A size is converted to a signed word exactly when it is below `2 ^ 31`. -/
theorem toInt32_eq_some {n : Nat} {i : Int32} : toInt32 n = some i ↔ i = Int32.ofNat n ∧ n < 2 ^ 31 := by
  unfold toInt32
  split
  · rename_i hlt
    simp only [Option.some.injEq, hlt, and_true]
    exact eq_comm
  · rename_i hlt
    simp only [reduceCtorEq, hlt, and_false]

/-- A size that was converted to a signed word is converted back. -/
theorem ofInt32_of_toInt32 {n : Nat} {i : Int32} (h : toInt32 n = some i) : ofInt32 i = some n := by
  obtain ⟨rfl, hlt⟩ := toInt32_eq_some.1 h
  rw [ofInt32, toSize_eq_some, Int32.toInt_ofNat_of_lt hlt]

/-- The signed 16-bit number an integer is, when it is one. -/
def toInt16 (i : Int) : Option Int16 := if -2 ^ 15 ≤ i ∧ i < 2 ^ 15 then some (Int16.ofInt i) else none

/-- An integer is converted exactly to the signed 16-bit number it is. -/
@[simp] theorem toInt16_eq_some {i : Int} {x : Int16} : toInt16 i = some x ↔ x.toInt = i := by
  have hlow := x.le_toInt
  have hhigh := x.toInt_lt
  unfold toInt16
  by_cases hfits : -2 ^ 15 ≤ i ∧ i < 2 ^ 15
  · have hvalue := Int16.toInt_ofInt_of_le hfits.1 hfits.2
    rw [if_pos hfits, Option.some.injEq, ← Int16.toInt_inj, hvalue]
    exact eq_comm
  · rw [if_neg hfits]
    refine ⟨fun hnone => absurd hnone (by simp), fun heq => absurd ?_ hfits⟩
    omega

/-- `checked_add` of signed 16-bit numbers. -/
def addInt16 (a b : Int16) : Option Int16 := toInt16 (a.toInt + b.toInt)

/-- `checked_sub` of signed 16-bit numbers. -/
def subInt16 (a b : Int16) : Option Int16 := toInt16 (a.toInt - b.toInt)

end Checked
