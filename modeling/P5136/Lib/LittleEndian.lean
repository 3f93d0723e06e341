import Mathlib.Algebra.Ring.Int.Defs
import Mathlib.Algebra.Ring.Nat
import Mathlib.Data.List.Basic

/-!
# Little-endian numbers

The bytes of a number, least significant first, in a fixed width, and the number that bytes stand for. Within the width the
two undo each other.
-/

namespace LittleEndian

open List

/-- The `width` lowest bytes of a number, least significant first. -/
def bytes : Nat → Nat → List UInt8
  | 0, _ => []
  | width + 1, n => UInt8.ofNat n :: bytes width (n / 256)

/-- The number bytes stand for, least significant first. -/
def value : List UInt8 → Nat
  | [] => 0
  | b :: rest => b.toNat + 256 * value rest

@[simp] theorem length_bytes (width n : Nat) : (bytes width n).length = width := by
  induction width generalizing n with
  | zero => rfl
  | succ width ih => simp [bytes, ih]

/-- A value fits the width of its bytes. -/
theorem value_lt (l : List UInt8) : value l < 256 ^ l.length := by
  induction l with
  | nil => simp [value]
  | cons b rest ih =>
    have hb : b.toNat < 256 := b.toNat_lt
    simp only [value, length_cons, Nat.pow_succ]
    omega

/-- The value of the bytes of a number that fits is that number. -/
theorem value_bytes {width n : Nat} (h : n < 256 ^ width) : value (bytes width n) = n := by
  induction width generalizing n with
  | zero =>
    simp only [Nat.pow_zero] at h
    simp only [bytes, value]
    omega
  | succ width ih =>
    have hd : n / 256 < 256 ^ width := by
      rw [Nat.pow_succ, Nat.mul_comm] at h
      exact Nat.div_lt_of_lt_mul h
    have hm : (UInt8.ofNat n).toNat = n % 256 := by simp
    simp only [bytes, value, ih hd, hm]
    omega

/-- The bytes of the value of bytes are those bytes. -/
theorem bytes_value (l : List UInt8) : bytes l.length (value l) = l := by
  induction l with
  | nil => rfl
  | cons b rest ih =>
    have hb : b.toNat < 256 := b.toNat_lt
    have hd : (b.toNat + 256 * value rest) / 256 = value rest := by omega
    have hm : UInt8.ofNat (b.toNat + 256 * value rest) = b := by
      apply UInt8.toNat_inj.1
      simp only [UInt8.toNat_ofNat']
      omega
    simp only [value, length_cons, bytes, hd, ih, hm]

/-- Bytes of one width with one value are the same bytes. -/
theorem value_inj {l m : List UInt8} (hlen : l.length = m.length) (h : value l = value m) : l = m := by
  rw [← bytes_value l, ← bytes_value m, hlen, h]

/-- The value of bytes modulo a power of 256 is the value of the first bytes. -/
theorem value_mod (l : List UInt8) (k : Nat) : value l % 256 ^ k = value (l.take k) := by
  induction l generalizing k with
  | nil => simp [value]
  | cons b rest ih =>
    cases k with
    | zero => simp [value, Nat.mod_one]
    | succ k =>
      have hb : b.toNat < 256 := b.toNat_lt
      have hrest := ih k
      simp only [value, take_succ_cons, ← hrest, Nat.pow_succ, Nat.mul_comm (256 ^ k) 256]
      rw [Nat.mod_mul, Nat.add_mul_mod_self_left, Nat.mod_eq_of_lt hb]
      congr 3
      omega

/-- The bytes of a number depend on no more of it than fits their width. -/
theorem bytes_mod (width n : Nat) : bytes width (n % 256 ^ width) = bytes width n := by
  refine value_inj (by simp) ?_
  rw [value_bytes (Nat.mod_lt _ (Nat.pow_pos (by decide)))]
  induction width generalizing n with
  | zero => simp [value, bytes, Nat.mod_one]
  | succ width ih =>
    have hm : (UInt8.ofNat n).toNat = n % 256 := by simp
    rw [bytes, value, ← ih, hm, Nat.pow_succ, Nat.mul_comm, Nat.mod_mul]

/-- The first bytes of a number. -/
theorem take_bytes {k width : Nat} (h : k ≤ width) (n : Nat) : (bytes width n).take k = bytes k n := by
  induction k generalizing width n with
  | zero => rfl
  | succ k ih =>
    obtain ⟨width, rfl⟩ : ∃ w, width = w + 1 := ⟨width - 1, by omega⟩
    rw [bytes, take_succ_cons, ih (by omega), bytes]

/-! ## Words -/

/-- The bytes of a 16-bit word. -/
def ofU16 (w : UInt16) : List UInt8 := bytes 2 w.toNat

/-- The 16-bit word of its bytes. -/
def toU16 (l : List UInt8) : UInt16 := UInt16.ofNat (value l)

/-- The bytes of a 32-bit word. -/
def ofU32 (w : UInt32) : List UInt8 := bytes 4 w.toNat

/-- The 32-bit word of its bytes. -/
def toU32 (l : List UInt8) : UInt32 := UInt32.ofNat (value l)

@[simp] theorem length_ofU16 (w : UInt16) : (ofU16 w).length = 2 := length_bytes ..

@[simp] theorem length_ofU32 (w : UInt32) : (ofU32 w).length = 4 := length_bytes ..

/-- The word of the bytes of a word is that word. -/
@[simp] theorem toU16_ofU16 (w : UInt16) : toU16 (ofU16 w) = w := by
  rw [toU16, ofU16, value_bytes (by simpa using w.toNat_lt), UInt16.ofNat_toNat]

/-- The word of the bytes of a word is that word. -/
@[simp] theorem toU32_ofU32 (w : UInt32) : toU32 (ofU32 w) = w := by
  rw [toU32, ofU32, value_bytes (by simpa using w.toNat_lt), UInt32.ofNat_toNat]

/-- Two bytes are the bytes of their word. -/
theorem ofU16_toU16 {l : List UInt8} (h : l.length = 2) : ofU16 (toU16 l) = l := by
  have hv : value l < 2 ^ 16 := by simpa [h] using value_lt l
  have hn : (toU16 l).toNat = value l := by
    simp only [toU16, UInt16.toNat_ofNat']
    exact Nat.mod_eq_of_lt hv
  rw [ofU16, hn, ← h, bytes_value]

/-- Four bytes are the bytes of their word. -/
theorem ofU32_toU32 {l : List UInt8} (h : l.length = 4) : ofU32 (toU32 l) = l := by
  have hv : value l < 2 ^ 32 := by simpa [h] using value_lt l
  have hn : (toU32 l).toNat = value l := by
    simp only [toU32, UInt32.toNat_ofNat']
    exact Nat.mod_eq_of_lt hv
  rw [ofU32, hn, ← h, bytes_value]

/-- Four bytes with one word are the same bytes. -/
theorem toU32_inj {l m : List UInt8} (hl : l.length = 4) (hm : m.length = 4) : toU32 l = toU32 m ↔ l = m := by
  refine ⟨fun h => ?_, fun h => h ▸ rfl⟩
  rw [← ofU32_toU32 hl, ← ofU32_toU32 hm, h]

/-- The 16-bit words of bytes, in order; a last odd byte is left out. -/
def words : List UInt8 → List UInt16
  | a :: b :: rest => toU16 [a, b] :: words rest
  | _ => []

/-- The words of the bytes of words are those words. -/
theorem words_ofU16 (ws : List UInt16) : words (ws.flatMap ofU16) = ws := by
  induction ws with
  | nil => rfl
  | cons w ws ih =>
    have h : ofU16 w = [UInt8.ofNat w.toNat, UInt8.ofNat (w.toNat / 256)] := rfl
    rw [flatMap_cons, h, cons_append, cons_append, nil_append, words, ih, ← h, toU16_ofU16]

/-- An even number of bytes are the bytes of their words. -/
theorem ofU16_words {n : Nat} : ∀ {l : List UInt8}, l.length = n * 2 → (words l).length = n ∧ (words l).flatMap ofU16 = l := by
  induction n with
  | zero =>
    intro l h
    obtain rfl : l = [] := length_eq_zero_iff.1 (by omega)
    exact ⟨rfl, rfl⟩
  | succ n ih =>
    intro l h
    match l, h with
    | a :: b :: rest, h =>
      obtain ⟨h1, h2⟩ := ih (l := rest) (by simp only [length_cons] at h; omega)
      refine ⟨by rw [words, length_cons, h1], ?_⟩
      rw [words, flatMap_cons, h2, ofU16_toU16 rfl]
      rfl
    | [a], h => exact absurd h (by simp only [length_singleton]; omega)
    | [], h => simp at h

/-- The bytes of words are twice as many. -/
theorem length_flatMap_ofU16 (ws : List UInt16) : (ws.flatMap ofU16).length = ws.length * 2 := by
  induction ws with
  | nil => rfl
  | cons w ws ih =>
    rw [flatMap_cons, length_append, ih, length_ofU16, length_cons]
    omega

/-! ## Signed numbers -/

/-- The bytes of a signed number, in two's complement. -/
def ofI32 (i : Int) : List UInt8 := bytes 4 (i % 2 ^ 32).toNat

/-- The signed number a 32-bit word stands for, in two's complement. -/
def signed (w : UInt32) : Int := if w.toNat < 2 ^ 31 then (w.toNat : Int) else (w.toNat : Int) - 2 ^ 32

/-- A word stands for a number that is not negative exactly when it is below `2 ^ 31`, and then for that number. -/
theorem signed_eq_natCast {w : UInt32} {n : Nat} : signed w = (n : Int) ↔ w.toNat = n ∧ n < 2 ^ 31 := by
  have hw : w.toNat < 2 ^ 32 := w.toNat_lt
  unfold signed
  split <;> omega

/-- The signed number four bytes stand for. -/
def toI32 (l : List UInt8) : Int := signed (toU32 l)

/-- The bytes of a number that is not negative. -/
theorem ofI32_natCast {n : Nat} (h : n < 2 ^ 31) : ofI32 (n : Int) = bytes 4 n := by
  have hn : ((n : Int) % 2 ^ 32).toNat = n := by omega
  rw [ofI32, hn]

/-- Four bytes stand for a number that is not negative exactly when they are its bytes and it is below `2 ^ 31`. -/
theorem toI32_eq_natCast {l : List UInt8} (hl : l.length = 4) {n : Nat} :
    toI32 l = (n : Int) ↔ l = bytes 4 n ∧ n < 2 ^ 31 := by
  have hv : value l < 2 ^ 32 := by simpa [hl] using value_lt l
  have hw : (toU32 l).toNat = value l := by
    simp only [toU32, UInt32.toNat_ofNat']
    exact Nat.mod_eq_of_lt hv
  rw [toI32, signed_eq_natCast, hw]
  constructor
  · rintro ⟨rfl, h⟩
    exact ⟨by rw [← hl, bytes_value], h⟩
  · rintro ⟨rfl, h⟩
    exact ⟨value_bytes (by omega), h⟩

/-- The bytes of a signed word. -/
def ofInt32 (i : Int32) : List UInt8 := ofU32 i.toUInt32

/-- The signed word of its bytes. -/
def toInt32 (l : List UInt8) : Int32 := (toU32 l).toInt32

@[simp] theorem length_ofInt32 (i : Int32) : (ofInt32 i).length = 4 := length_ofU32 _

/-- The signed word of the bytes of a signed word is that word. -/
@[simp] theorem toInt32_ofInt32 (i : Int32) : toInt32 (ofInt32 i) = i := by
  rw [toInt32, ofInt32, toU32_ofU32]
  rfl

end LittleEndian
