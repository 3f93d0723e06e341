import P5136.Lib.LittleEndian

/-!
# Word ciphers

Bytes taken four at a time as little-endian words, each combined with the next word of a key stream. Adding and subtracting the
key undo each other, also on a last chunk of fewer bytes. A difference of words shows in its low bytes only what the low bytes
of the words hold, so the bytes before a place decrypt in the same way whatever stands behind it.
-/

namespace WordCipher

open LittleEndian List

variable (words : Nat → UInt32)

/-- Combine each four bytes with the next key word. A last chunk of fewer bytes counts as the low bytes of a word, and stays
as long as it is. -/
def combine (f : UInt32 → UInt32 → UInt32) : (index : Nat) → List UInt8 → List UInt8
  | index, a :: b :: c :: d :: rest => ofU32 (f (toU32 [a, b, c, d]) (words index)) ++ combine f (index + 1) rest
  | index, chunk => (ofU32 (f (toU32 chunk) (words index))).take chunk.length

/-- Add the key stream. -/
def encrypt (data : List UInt8) : List UInt8 := combine words (· + ·) 0 data

/-- Subtract the key stream. -/
def decrypt (data : List UInt8) : List UInt8 := combine words (· - ·) 0 data

/-- Subtract the key stream from the whole words, from one index on. -/
def decryptWords : (index : Nat) → List UInt8 → List UInt8
  | index, a :: b :: c :: d :: rest => ofU32 (toU32 [a, b, c, d] - words index) ++ decryptWords (index + 1) rest
  | _, _ => []

/-! ## One word -/

/-- The low bytes of a difference depend on the low bytes only. -/
theorem take_ofU32_sub {x y : List UInt8} {k : Nat} (hk : k ≤ 4) (h : x.take k = y.take k) (w : UInt32) :
    (ofU32 (toU32 x - w)).take k = (ofU32 (toU32 y - w)).take k := by
  have hmod : ∀ l : List UInt8, (toU32 l - w).toNat % 256 ^ k = (2 ^ 32 - w.toNat + value l) % 256 ^ k := by
    intro l
    have hdvd : 256 ^ k ∣ 2 ^ 32 := by
      have hpow : (2 : Nat) ^ 32 = 256 ^ 4 := by decide
      rw [hpow]
      exact Nat.pow_dvd_pow 256 hk
    rw [UInt32.toNat_sub, toU32, UInt32.toNat_ofNat', Nat.add_mod_mod, Nat.mod_mod_of_dvd _ hdvd]
  have hvalue : value x % 256 ^ k = value y % 256 ^ k := by rw [value_mod, value_mod, h]
  rw [ofU32, ofU32, take_bytes hk, take_bytes hk, ← bytes_mod k (toU32 x - w).toNat, ← bytes_mod k (toU32 y - w).toNat,
    hmod, hmod, Nat.add_mod, hvalue, ← Nat.add_mod]

/-- The bytes of a chunk are the low bytes of its word. -/
theorem take_ofU32_toU32 {l : List UInt8} (h : l.length ≤ 4) : (ofU32 (toU32 l)).take l.length = l := by
  have hlt : value l < 2 ^ 32 := by
    have hpow : (2 : Nat) ^ 32 = 256 ^ 4 := by decide
    rw [hpow]
    exact Nat.lt_of_lt_of_le (value_lt l) (Nat.pow_le_pow_right (by decide) h)
  have hn : (toU32 l).toNat = value l := by
    rw [toU32, UInt32.toNat_ofNat']
    exact Nat.mod_eq_of_lt hlt
  rw [ofU32, take_bytes h, hn, bytes_value]

/-- Subtracting the word that was added to a chunk gives the chunk. -/
theorem take_sub_add {chunk : List UInt8} (h : chunk.length ≤ 4) (w : UInt32) :
    (ofU32 (toU32 ((ofU32 (toU32 chunk + w)).take chunk.length) - w)).take chunk.length = chunk := by
  have hlow : ((ofU32 (toU32 chunk + w)).take chunk.length).take chunk.length =
      (ofU32 (toU32 chunk + w)).take chunk.length := by
    rw [take_take, Nat.min_self]
  rw [take_ofU32_sub h hlow, toU32_ofU32, UInt32.add_sub_cancel, take_ofU32_toU32 h]

/-! ## A stream -/

/-- A combination has as many bytes as the data. -/
@[simp] theorem length_combine (f : UInt32 → UInt32 → UInt32) (index : Nat) (data : List UInt8) :
    (combine words f index data).length = data.length := by
  fun_induction combine words f index data with
  | case1 index a b c d rest ih =>
    simp only [length_append, length_ofU32, ih, length_cons]
    omega
  | case2 index chunk hshort =>
    have hle : chunk.length ≤ 4 := by
      match chunk, hshort with
      | [], _ | [_], _ | [_, _], _ | [_, _, _], _ => simp
      | a :: b :: c :: d :: rest, hshort => exact absurd rfl (hshort a b c d rest)
    rw [length_take, length_ofU32]
    omega

@[simp] theorem length_encrypt (data : List UInt8) : (encrypt words data).length = data.length := length_combine ..

/-- A whole word at the head of a combination. -/
theorem combine_append {f : UInt32 → UInt32 → UInt32} {index : Nat} {word rest : List UInt8} (h : word.length = 4) :
    combine words f index (word ++ rest) = ofU32 (f (toU32 word) (words index)) ++ combine words f (index + 1) rest := by
  match word, h with
  | [a, b, c, d], _ => rfl

/-- A whole word at the head of what is decrypted word by word. -/
theorem decryptWords_append {index : Nat} {word rest : List UInt8} (h : word.length = 4) :
    decryptWords words index (word ++ rest) = ofU32 (toU32 word - words index) ++ decryptWords words (index + 1) rest := by
  match word, h with
  | [a, b, c, d], _ => rfl

/-- A chunk shorter than a word. -/
theorem combine_short {f : UInt32 → UInt32 → UInt32} {index : Nat} {chunk : List UInt8} (h : chunk.length < 4) :
    combine words f index chunk = (ofU32 (f (toU32 chunk) (words index))).take chunk.length := by
  match chunk, h with
  | [], _ | [_], _ | [_, _], _ | [_, _, _], _ => rfl
  | _ :: _ :: _ :: _ :: _, h => exact absurd h (by simp only [length_cons]; omega)

/-- Subtracting the key stream undoes adding it. -/
theorem combine_sub_add (index : Nat) (data : List UInt8) :
    combine words (· - ·) index (combine words (· + ·) index data) = data := by
  fun_induction combine words (· + ·) index data with
  | case1 index a b c d rest ih =>
    rw [combine_append words (length_ofU32 _), ih, toU32_ofU32, UInt32.add_sub_cancel, ofU32_toU32 rfl]
    rfl
  | case2 index chunk hshort =>
    have hlt : chunk.length < 4 := by
      match chunk, hshort with
      | [], _ | [_], _ | [_, _], _ | [_, _, _], _ => simp
      | a :: b :: c :: d :: rest, hshort => exact absurd rfl (hshort a b c d rest)
    have hlen : ((ofU32 (toU32 chunk + words index)).take chunk.length).length = chunk.length := by
      rw [length_take, length_ofU32]
      omega
    rw [combine_short words (by rw [hlen]; exact hlt), hlen, take_sub_add (by omega)]

/-- Decryption undoes encryption. -/
@[simp] theorem decrypt_encrypt (data : List UInt8) : decrypt words (encrypt words data) = data := combine_sub_add words 0 data

/-- Word by word, decryption undoes the encryption of whole words. -/
theorem decryptWords_combine (index n : Nat) {data : List UInt8} (h : data.length = 4 * n) :
    decryptWords words index (combine words (· + ·) index data) = data := by
  induction n generalizing index data with
  | zero =>
    obtain rfl : data = [] := length_eq_zero_iff.1 (by omega)
    rfl
  | succ n ih =>
    obtain ⟨word, rest, rfl, hword⟩ : ∃ word rest, data = word ++ rest ∧ word.length = 4 :=
      ⟨data.take 4, data.drop 4, (take_append_drop ..).symm, by rw [length_take]; omega⟩
    rw [length_append, hword] at h
    rw [combine_append words hword, decryptWords_append words (length_ofU32 _), ih _ (by omega), toU32_ofU32,
      UInt32.add_sub_cancel, ofU32_toU32 hword]

/-- Bytes before a place that lies inside the whole words of both decrypt in the same way whatever stands behind it. -/
theorem take_decryptWords (index n : Nat) {x y : List UInt8} {k : Nat} (hx : x.length = 4 * n) (hk : k ≤ 4 * n)
    (hle : x.length ≤ y.length) (h : x.take k = y.take k) :
    (decryptWords words index y).take k = (decryptWords words index x).take k := by
  induction n generalizing index k x y with
  | zero =>
    obtain rfl : k = 0 := by omega
    simp only [take_zero]
  | succ n ih =>
    obtain ⟨xw, xs, rfl, hxw⟩ : ∃ word rest, x = word ++ rest ∧ word.length = 4 :=
      ⟨x.take 4, x.drop 4, (take_append_drop ..).symm, by rw [length_take]; omega⟩
    obtain ⟨yw, ys, rfl, hyw⟩ : ∃ word rest, y = word ++ rest ∧ word.length = 4 :=
      ⟨y.take 4, y.drop 4, (take_append_drop ..).symm, by rw [length_take]; omega⟩
    simp only [length_append, hxw, hyw] at hx hle
    rw [decryptWords_append words hxw, decryptWords_append words hyw]
    by_cases hk4 : 4 ≤ k
    · -- the first word is the same, and the rest is compared on
      have hfirst : xw = yw := by
        have h4 := congrArg (take 4) h
        rw [take_take, take_take, Nat.min_eq_left hk4] at h4
        rw [← hxw, take_left, hxw, ← hyw, take_left] at h4
        exact h4
      have hrest : xs.take (k - 4) = ys.take (k - 4) := by
        have hd := congrArg (drop 4) h
        rw [drop_take, drop_take] at hd
        rw [← hxw, drop_left, hxw, ← hyw, drop_left, hyw] at hd
        exact hd
      have hrec := ih (index + 1) (k := k - 4) (by omega) (by omega) (by omega) hrest
      rw [hfirst, take_append, take_append, length_ofU32, hrec]
    · -- the place lies inside the first word
      have hlow : xw.take k = yw.take k := by
        rw [take_append_of_le_length (by omega), take_append_of_le_length (by omega)] at h
        exact h
      rw [take_append_of_le_length (by rw [length_ofU32]; omega),
        take_append_of_le_length (by rw [length_ofU32]; omega), take_ofU32_sub (by omega) hlow]

/-! ## Padded streams -/

/-- Zeros up to a whole number of words. -/
def pad (data : List UInt8) : List UInt8 := data ++ replicate ((4 - data.length % 4) % 4) 0

/-- A padded stream is a whole number of words, less than a word longer than the data. -/
theorem length_pad (data : List UInt8) : ∃ n, (pad data).length = 4 * n ∧ data.length ≤ 4 * n ∧ 4 * n < data.length + 4 := by
  refine ⟨(data.length + 3) / 4, ?_, by omega, by omega⟩
  rw [pad, length_append, length_replicate]
  omega

/-- Where the encryption of the padded data stood, and no more than the padding was written over, the data is decrypted
first. -/
theorem take_decryptWords_pad {data stored : List UInt8} (hlen : (pad data).length ≤ stored.length)
    (h : stored.take data.length = (encrypt words (pad data)).take data.length) :
    (decryptWords words 0 stored).take data.length = data := by
  obtain ⟨n, hn, hle, -⟩ := length_pad data
  have hc : (encrypt words (pad data)).length = 4 * n := by rw [length_encrypt, hn]
  rw [take_decryptWords words 0 n hc hle (by omega) h.symm, encrypt, decryptWords_combine words 0 n hn, pad, take_left]

end WordCipher
