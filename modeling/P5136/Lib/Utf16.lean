import Mathlib.Algebra.Ring.Int.Defs
import Mathlib.Algebra.Ring.Nat
import Mathlib.Data.List.Basic

/-!
# UTF-16

The code units of a character and of a text, and the decoder that accepts no unpaired surrogate. The decoder accepts exactly
the encodings, and undoes them.
-/

namespace Utf16

/-- The first unit of a surrogate pair lies in `0xD800..=0xDBFF`. -/
def IsHigh (n : Nat) : Prop := 0xD800 ≤ n ∧ n < 0xDC00

/-- The second unit of a surrogate pair lies in `0xDC00..=0xDFFF`. -/
def IsLow (n : Nat) : Prop := 0xDC00 ≤ n ∧ n < 0xE000

instance : DecidablePred IsHigh := fun n => inferInstanceAs (Decidable (0xD800 ≤ n ∧ n < 0xDC00))
instance : DecidablePred IsLow := fun n => inferInstanceAs (Decidable (0xDC00 ≤ n ∧ n < 0xE000))

/-- The one or two code units of a character. -/
def encodeChar (c : Char) : List UInt16 :=
  if c.toNat < 0x10000 then [UInt16.ofNat c.toNat]
  else [UInt16.ofNat (0xD800 + (c.toNat - 0x10000) / 0x400), UInt16.ofNat (0xDC00 + (c.toNat - 0x10000) % 0x400)]

/-- The code units of a text. -/
def encode (cs : List Char) : List UInt16 := cs.flatMap encodeChar

/-- The text of code units; none when a surrogate is unpaired. -/
def decode : List UInt16 → Option (List Char)
  | [] => some []
  | u :: rest =>
    if IsHigh u.toNat then
      match rest with
      | [] => none
      | v :: rest' =>
        if IsLow v.toNat then
          (decode rest').map (Char.ofNat (0x10000 + (u.toNat - 0xD800) * 0x400 + (v.toNat - 0xDC00)) :: ·)
        else none
    else if IsLow u.toNat then none
    else (decode rest).map (Char.ofNat u.toNat :: ·)

/-- The text of code units, with the replacement character for each unpaired surrogate. -/
def decodeLossy : List UInt16 → List Char
  | [] => []
  | u :: rest =>
    if IsHigh u.toNat then
      match rest with
      | [] => [Char.ofNat 0xFFFD]
      | v :: rest' =>
        if IsLow v.toNat then
          Char.ofNat (0x10000 + (u.toNat - 0xD800) * 0x400 + (v.toNat - 0xDC00)) :: decodeLossy rest'
        else Char.ofNat 0xFFFD :: decodeLossy (v :: rest')
    else if IsLow u.toNat then Char.ofNat 0xFFFD :: decodeLossy rest
    else Char.ofNat u.toNat :: decodeLossy rest

/-! ## Characters -/

/-- A character is no surrogate and lies below `0x110000`. -/
theorem toNat_range (c : Char) : c.toNat < 0xD800 ∨ 0xDFFF < c.toNat ∧ c.toNat < 0x110000 := c.valid

/-- The number of a character made from a valid number. -/
theorem toNat_ofNat {n : Nat} (h : n < 0xD800 ∨ 0xDFFF < n ∧ n < 0x110000) : (Char.ofNat n).toNat = n := by
  have hv : n.isValidChar := h
  rw [Char.ofNat, dif_pos hv]
  rfl

/-- The decoder reads back an encoded character and goes on after it. -/
theorem decode_encodeChar_append (c : Char) (us : List UInt16) :
    decode (encodeChar c ++ us) = (decode us).map (c :: ·) := by
  have hc := toNat_range c
  unfold encodeChar
  split
  · rename_i hlt
    have hu : (UInt16.ofNat c.toNat).toNat = c.toNat := by
      rw [UInt16.toNat_ofNat']
      exact Nat.mod_eq_of_lt hlt
    have hh : ¬IsHigh c.toNat := by unfold IsHigh; omega
    have hl : ¬IsLow c.toNat := by unfold IsLow; omega
    rw [List.singleton_append, decode.eq_def]
    simp only [hu, if_neg hh, if_neg hl, Char.ofNat_toNat]
  · rename_i hge
    -- a surrogate pair: ten bits in each unit
    have hu : (UInt16.ofNat (0xD800 + (c.toNat - 0x10000) / 0x400)).toNat = 0xD800 + (c.toNat - 0x10000) / 0x400 := by
      rw [UInt16.toNat_ofNat']
      exact Nat.mod_eq_of_lt (by omega)
    have hv : (UInt16.ofNat (0xDC00 + (c.toNat - 0x10000) % 0x400)).toNat = 0xDC00 + (c.toNat - 0x10000) % 0x400 := by
      rw [UInt16.toNat_ofNat']
      exact Nat.mod_eq_of_lt (by omega)
    have hh : IsHigh (0xD800 + (c.toNat - 0x10000) / 0x400) := by unfold IsHigh; omega
    have hl : IsLow (0xDC00 + (c.toNat - 0x10000) % 0x400) := by unfold IsLow; omega
    have hsum : 0x10000 + (0xD800 + (c.toNat - 0x10000) / 0x400 - 0xD800) * 0x400 +
        (0xDC00 + (c.toNat - 0x10000) % 0x400 - 0xDC00) = c.toNat := by omega
    simp only [List.cons_append, List.nil_append, decode, hu, hv, if_pos hh, if_pos hl, hsum, Char.ofNat_toNat]

/-! ## Texts -/

/-- The decoder reads back an encoded text. -/
theorem decode_encode (cs : List Char) : decode (encode cs) = some cs := by
  induction cs with
  | nil => rfl
  | cons c cs ih =>
    have h : encode (c :: cs) = encodeChar c ++ encode cs := rfl
    rw [h, decode_encodeChar_append, ih]
    rfl

/-- What the decoder accepts is the encoding of what it returns. -/
theorem encode_of_decode {us : List UInt16} {cs : List Char} (h : decode us = some cs) : encode cs = us := by
  fun_induction decode us generalizing cs with
  | case1 => cases h; rfl
  | case2 => nomatch h
  | case3 u hu v rest hv ih =>
    obtain ⟨cs', hcs, rfl⟩ := Option.map_eq_some_iff.1 h
    obtain ⟨hu1, hu2⟩ := hu
    obtain ⟨hv1, hv2⟩ := hv
    have hn : (Char.ofNat (0x10000 + (u.toNat - 0xD800) * 0x400 + (v.toNat - 0xDC00))).toNat =
        0x10000 + (u.toNat - 0xD800) * 0x400 + (v.toNat - 0xDC00) := toNat_ofNat (by omega)
    have hfst : 0xD800 + (0x10000 + (u.toNat - 0xD800) * 0x400 + (v.toNat - 0xDC00) - 0x10000) / 0x400 = u.toNat := by
      omega
    have hsnd : 0xDC00 + (0x10000 + (u.toNat - 0xD800) * 0x400 + (v.toNat - 0xDC00) - 0x10000) % 0x400 = v.toNat := by
      omega
    change encodeChar _ ++ encode cs' = _
    rw [ih hcs, encodeChar, hn, if_neg (by omega), hfst, hsnd, UInt16.ofNat_toNat, UInt16.ofNat_toNat]
    rfl
  | case4 => nomatch h
  | case5 => nomatch h
  | case6 u rest hu hl ih =>
    obtain ⟨cs', hcs, rfl⟩ := Option.map_eq_some_iff.1 h
    have hlt : u.toNat < 2 ^ 16 := u.toNat_lt
    have hn : (Char.ofNat u.toNat).toNat = u.toNat := by
      refine toNat_ofNat ?_
      unfold IsHigh at hu
      unfold IsLow at hl
      omega
    change encodeChar _ ++ encode cs' = _
    rw [ih hcs, encodeChar, hn, if_pos (by omega), UInt16.ofNat_toNat]
    rfl

/-- The decoder accepts exactly the encoding of what it returns. -/
theorem decode_eq_some {us : List UInt16} {cs : List Char} : decode us = some cs ↔ us = encode cs := by
  constructor
  · intro h
    exact (encode_of_decode h).symm
  · rintro rfl
    exact decode_encode cs

/-- Where no surrogate is unpaired, nothing is replaced. -/
theorem decodeLossy_of_decode {us : List UInt16} {cs : List Char} (h : decode us = some cs) : decodeLossy us = cs := by
  fun_induction decode us generalizing cs with
  | case1 => cases h; rfl
  | case2 => nomatch h
  | case3 u hu v rest hv ih =>
    obtain ⟨cs', hcs, rfl⟩ := Option.map_eq_some_iff.1 h
    rw [decodeLossy.eq_def]
    simp only [if_pos hu, if_pos hv, ih hcs]
  | case4 => nomatch h
  | case5 => nomatch h
  | case6 u rest hu hl ih =>
    obtain ⟨cs', hcs, rfl⟩ := Option.map_eq_some_iff.1 h
    rw [decodeLossy.eq_def]
    simp only [if_neg hu, if_neg hl, ih hcs]

end Utf16
