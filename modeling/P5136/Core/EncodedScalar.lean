import Mathlib.Data.Fintype.EquivFin
import P5136.Lib.Binary32
import P5136.Lib.Checks
import P5136.Lib.Fault
import P5136.Lib.LittleEndian
import P5136.Lib.Substitution

/-!
# Encoded scalars

The substitution that hides scalars on the wire (`encoded.rs`). The encoder adds the position to a byte modulo 255 and looks the
sum up; the decoder looks the byte up and takes the position away modulo 256.
-/

namespace P5136

open LittleEndian Checks

inductive EncodedScalarError where
  | tooLong (length : Nat)
deriving DecidableEq

namespace EncodedScalar

/-- `MAX_ENCODED_SCALAR_BYTES`. -/
def maxEncodedScalarBytes : Nat := 255

set_option maxRecDepth 2000 in
/-- `DECODE_TABLE`. -/
def decodeTable : Vector UInt8 256 := #v[
    79, 200, 44, 182, 173, 43, 108, 229, 46, 65, 174, 137, 154, 120, 126, 207, 91, 124, 189, 116,
    251, 220, 5, 239, 42, 167, 225, 205, 215, 90, 41, 45, 13, 4, 245, 231, 180, 133, 208, 59, 178,
    20, 110, 150, 219, 99, 203, 243, 141, 160, 81, 195, 31, 78, 228, 57, 181, 121, 76, 170, 21,
    143, 240, 37, 222, 9, 152, 138, 113, 56, 254, 27, 100, 75, 62, 52, 107, 69, 25, 196, 123, 30,
    193, 39, 19, 197, 36, 11, 128, 80, 230, 29, 32, 145, 58, 209, 176, 50, 129, 244, 147, 102, 112,
    151, 97, 70, 40, 168, 96, 83, 190, 86, 2, 51, 177, 217, 172, 105, 118, 38, 210, 206, 201, 183,
    1, 248, 74, 17, 246, 139, 22, 164, 55, 185, 67, 237, 159, 3, 184, 212, 235, 156, 117, 162, 142,
    214, 33, 127, 48, 213, 136, 211, 26, 194, 199, 169, 161, 134, 89, 227, 140, 87, 10, 144, 77,
    247, 187, 125, 82, 241, 23, 103, 16, 95, 192, 85, 6, 68, 149, 66, 165, 8, 253, 61, 157, 224, 0,
    166, 92, 7, 179, 255, 73, 49, 242, 236, 54, 153, 104, 202, 115, 64, 111, 28, 233, 53, 72, 232,
    171, 252, 135, 101, 18, 146, 98, 71, 221, 148, 24, 234, 198, 114, 163, 109, 106, 249, 84, 186,
    238, 94, 223, 155, 132, 175, 60, 88, 226, 35, 122, 15, 34, 63, 204, 158, 218, 14, 130, 131,
    191, 188, 93, 47, 216, 119, 250, 12]

/-- The entry of the decode table for a code. -/
def decoded (code : UInt8) : UInt8 := decodeTable.get code.toFin

/-- `invert_decode_table`: the loop runs over all the codes, from 0 to 255. -/
def invertDecodeTable : Vector UInt8 256 :=
  Substitution.invert (fun encoded => (decoded encoded).toFin) (Vector.replicate 256 0) ((List.range 256).map UInt8.ofNat)

/-- `ENCODE_TABLE`. -/
def encodeTable : Vector UInt8 256 := invertDecodeTable

/-- The key of a byte at a position, which is an index of the table. -/
def keyOf (position : Nat) (value : UInt8) : Fin 256 := ⟨(position + value.toNat) % 255, by omega⟩

def validateLength (length : Nat) : Except EncodedScalarError Unit :=
  ensure (¬length > maxEncodedScalarBytes) (.tooLong length)

/-- The byte that a position is, where an `expect` says that it is one. -/
def positionByte {ε : Type} (expected : String) (position : Nat) : Except (Fault ε) UInt8 :=
  if position ≤ 255 then .ok (UInt8.ofNat position) else .error (.panic expected)

def encodeBytes (plain : List UInt8) : Except EncodedScalarError (List UInt8) := do
  validateLength plain.length
  pure (plain.zipIdx.map fun entry => encodeTable.get (keyOf entry.2 entry.1))

def decodeBytes (encoded : List UInt8) : Except (Fault EncodedScalarError) (List UInt8) := do
  (validateLength encoded.length).mapError .error
  Checks.traverse (fun entry => do
    let position ← positionByte "validated encoded scalar position fits in u8" entry.2
    pure (decoded entry.1 - position)) encoded.zipIdx

def encodeArray {length : Nat} (plain : Vector UInt8 length) : Vector UInt8 length :=
  Vector.ofFn fun position => encodeTable.get (keyOf position (plain.get position))

/-- `decode_array`; the bytes are indexed by the position as a byte, which is the position when it is one. -/
def decodeArray {length : Nat} (encoded : Vector UInt8 length) : Except (Fault Empty) (Vector UInt8 length) :=
  Vector.ofFnM fun index => do
    let position ← positionByte "P5136 scalar positions fit in u8" index
    pure (decoded (encoded.get index) - position)

/-- The bytes of a word of a known width as an array. -/
def leBytes {length : Nat} (bytes : List UInt8) (h : bytes.length = length) : Vector UInt8 length := ⟨bytes.toArray, h⟩

def encodeU16 (value : UInt16) : Vector UInt8 2 := encodeArray (leBytes (ofU16 value) (by simp))

def decodeU16 (value : Vector UInt8 2) : Except (Fault Empty) UInt16 := do
  let plain ← decodeArray value
  pure (toU16 plain.toList)

def encodeI32 (value : Int32) : Vector UInt8 4 := encodeArray (leBytes (ofInt32 value) (by simp))

def decodeI32 (value : Vector UInt8 4) : Except (Fault Empty) Int32 := do
  let plain ← decodeArray value
  pure (toInt32 plain.toList)

def encodeU32 (value : UInt32) : Vector UInt8 4 := encodeArray (leBytes (ofU32 value) (by simp))

def decodeU32 (value : Vector UInt8 4) : Except (Fault Empty) UInt32 := do
  let plain ← decodeArray value
  pure (toU32 plain.toList)

def encodeF32 (value : Binary32) : Vector UInt8 4 := encodeArray (leBytes (ofU32 value.toBits) (by simp))

def decodeF32 (value : Vector UInt8 4) : Except (Fault Empty) Binary32 := do
  let plain ← decodeArray value
  pure (.ofBits (toU32 plain.toList))

/-! ## The tables -/

theorem decodeTable_nodup : decodeTable.toList.Nodup :=
  .of_map UInt8.toNat (by decide +kernel)

/-- No two codes have the same entry. -/
theorem decoded_injective : Function.Injective decoded := by
  intro left right h
  exact UInt8.toFin_inj.1 (Substitution.get_injective decodeTable_nodup h)

/-- The decode table is a permutation of the bytes. -/
theorem decoded_bijective : Function.Bijective decoded := by
  refine ⟨decoded_injective, fun value => ?_⟩
  have hinj : Function.Injective fun code : Fin 256 => (decoded (UInt8.ofFin code)).toFin := by
    intro left right h
    have hcode := decoded_injective (UInt8.toFin_inj.1 h)
    exact congrArg UInt8.toFin hcode
  obtain ⟨code, hcode⟩ := Finite.injective_iff_surjective.1 hinj value.toFin
  exact ⟨UInt8.ofFin code, UInt8.toFin_inj.1 hcode⟩

/-- The encode table reads every code back from its entry. -/
theorem encodeTable_decoded (code : UInt8) : encodeTable.get (decoded code).toFin = code := by
  refine Substitution.invert_get (fun left right h => decoded_injective (UInt8.toFin_inj.1 h)) ?_ _
  exact List.mem_map.2 ⟨code.toNat, List.mem_range.2 code.toNat_lt, UInt8.ofNat_toNat⟩

/-- The decode table reads every key back from its entry. -/
theorem decoded_encodeTable (key : Fin 256) : decoded (encodeTable.get key) = UInt8.ofFin key := by
  obtain ⟨code, hcode⟩ := decoded_bijective.2 (UInt8.ofFin key)
  have hread := encodeTable_decoded code
  rw [hcode] at hread
  exact (congrArg decoded hread).trans hcode

/-! ## One byte -/

/-- What the round trip makes of a byte at a position: the byte, or the next one where the sum reached 255. -/
def returned (position : Nat) (value : UInt8) : UInt8 := if position + value.toNat < 255 then value else value + 1

/-- A byte at a position of a scalar is decoded to what the round trip makes of it. -/
theorem decoded_keyOf {position : Nat} (h : position < 255) (value : UInt8) :
    decoded (encodeTable.get (keyOf position value)) - UInt8.ofNat position = returned position value := by
  have hvalue := value.toNat_lt
  have hkey : (UInt8.ofFin (keyOf position value)).toNat = (position + value.toNat) % 255 := rfl
  have hposition : (UInt8.ofNat position).toNat = position := by
    rw [UInt8.toNat_ofNat']
    omega
  rw [decoded_encodeTable, ← UInt8.toNat_inj, UInt8.toNat_sub, hkey, hposition, returned]
  by_cases hsum : position + value.toNat < 255
  · rw [if_pos hsum, Nat.mod_eq_of_lt hsum]
    omega
  · -- the encoder took 255 away once, the decoder takes the position away modulo 256
    have honce : (position + value.toNat) % 255 = position + value.toNat - 255 := by omega
    rw [if_neg hsum, UInt8.toNat_add, UInt8.toNat_one, honce]
    omega

/-- A byte comes back as it was exactly when the sum is below 255. -/
theorem returned_eq_iff {position : Nat} {value : UInt8} : returned position value = value ↔ position + value.toNat < 255 := by
  have hvalue := value.toNat_lt
  unfold returned
  by_cases hsum : position + value.toNat < 255
  · simp only [hsum, if_true]
  · simp only [hsum, if_false, iff_false, ← UInt8.toNat_inj, UInt8.toNat_add, UInt8.toNat_one]
    omega

/-- A position of a string that is not too long is a byte. -/
theorem positionByte_eq {ε : Type} {position : Nat} (h : position ≤ 255) (expected : String) :
    positionByte expected position = (.ok (UInt8.ofNat position) : Except (Fault ε) UInt8) := if_pos h

/-! ## Strings of bytes -/

/-- A string of at most 255 bytes is encoded byte by byte. -/
theorem encodeBytes_eq {plain : List UInt8} (h : plain.length ≤ 255) :
    encodeBytes plain = .ok (plain.mapIdx fun position value => encodeTable.get (keyOf position value)) := by
  have hlength : validateLength plain.length = .ok () := ensure_eq_ok.2 (by simpa [maxEncodedScalarBytes] using h)
  rw [encodeBytes, hlength, List.mapIdx_eq_zipIdx_map]
  rfl

/-- A string of at most 255 bytes is decoded byte by byte; no position fails to be a byte. -/
theorem decodeBytes_eq {encoded : List UInt8} (h : encoded.length ≤ 255) :
    decodeBytes encoded = .ok (encoded.mapIdx fun position value => decoded value - UInt8.ofNat position) := by
  have hlength : validateLength encoded.length = .ok () :=
    ensure_eq_ok.2 (by simpa [maxEncodedScalarBytes] using h)
  rw [decodeBytes, hlength, List.mapIdx_eq_zipIdx_map]
  refine traverse_of_ok fun entry hentry => ?_
  have hposition := List.snd_lt_of_mem_zipIdx hentry
  rw [positionByte_eq (by omega)]
  rfl

/-- A longer string is not encoded. -/
theorem encodeBytes_tooLong {plain : List UInt8} (h : 255 < plain.length) :
    encodeBytes plain = .error (.tooLong plain.length) :=
  bind_eq_error.2 (.inl (ensure_eq_error.2 ⟨fun hle => hle h, rfl⟩))

/-- A longer string is not decoded. -/
theorem decodeBytes_tooLong {encoded : List UInt8} (h : 255 < encoded.length) :
    decodeBytes encoded = .error (.error (.tooLong encoded.length)) := by
  have hlength : validateLength encoded.length = .error (.tooLong encoded.length) :=
    ensure_eq_error.2 ⟨fun hle => hle h, rfl⟩
  rw [decodeBytes, hlength]
  rfl

/-- The round trip of a string makes of each byte what it makes of a byte at its position. -/
theorem decodeBytes_encodeBytes {plain encoded : List UInt8} (h : encodeBytes plain = .ok encoded) :
    decodeBytes encoded = .ok (plain.mapIdx returned) := by
  rcases Nat.lt_or_ge 255 plain.length with hlong | hshort
  · rw [encodeBytes_tooLong hlong] at h
    cases h
  · rw [encodeBytes_eq hshort, Except.ok.injEq] at h
    subst h
    rw [decodeBytes_eq (by simpa using hshort), List.mapIdx_mapIdx]
    refine congrArg Except.ok (List.mapIdx_eq_mapIdx_iff.2 fun position hposition => ?_)
    exact decoded_keyOf (by omega) _

/-- The round trip keeps exactly the strings in which no position and byte reach 255 together. -/
theorem mapIdx_returned_iff {plain : List UInt8} :
    plain.mapIdx returned = plain ↔ ∀ position value, plain[position]? = some value → position + value.toNat < 255 := by
  rw [List.mapIdx_eq_iff]
  refine forall_congr' fun position => ?_
  rcases hvalue : plain[position]? with _ | value
  · simp
  · simp only [Option.map_some, Option.some.injEq, forall_eq']
    rw [eq_comm, returned_eq_iff]

/-! ## Arrays -/

/-- An array of at most 255 bytes is encoded as the string of its bytes. -/
theorem encodeBytes_toList {length : Nat} (h : length ≤ 255) (plain : Vector UInt8 length) :
    encodeBytes plain.toList = .ok (encodeArray plain).toList := by
  rw [encodeBytes_eq (by simpa using h), encodeArray, Vector.toList_ofFn]
  refine congrArg Except.ok (List.ext_getElem (by simp) fun position hleft hright => ?_)
  rw [List.getElem_mapIdx, List.getElem_ofFn]
  rfl

/-- An array of at most 255 bytes is decoded, and as the string of its bytes. -/
theorem decodeArray_eq {length : Nat} (h : length ≤ 255) (encoded : Vector UInt8 length) :
    ∃ plain, decodeArray encoded = .ok plain ∧ decodeBytes encoded.toList = .ok plain.toList := by
  refine ⟨Vector.ofFn fun position => decoded (encoded.get position) - UInt8.ofNat position, ?_, ?_⟩
  · refine Eq.trans (congrArg Vector.ofFnM (funext fun position => ?_)) Vector.ofFnM_pure
    have hposition := position.2
    rw [positionByte_eq (by omega)]
    rfl
  · rw [decodeBytes_eq (by simpa using h), Vector.toList_ofFn]
    refine congrArg Except.ok (List.ext_getElem (by simp) fun position hleft hright => ?_)
    rw [List.getElem_mapIdx, List.getElem_ofFn]
    rfl

/-- The encoder of a fixed width writes what `encode_bytes` writes for the bytes of the value. -/
def EncodesAs {τ : Type} {length : Nat} (encode : τ → Vector UInt8 length) (bytes : τ → List UInt8) : Prop :=
  ∀ value, encodeBytes (bytes value) = .ok (encode value).toList

/-- The decoder of a fixed width returns the value of the bytes that `decode_bytes` reads. -/
def DecodesAs {τ : Type} {length : Nat} (decode : Vector UInt8 length → Except (Fault Empty) τ) (value : List UInt8 → τ) :
    Prop :=
  ∀ encoded, ∃ plain, decodeBytes encoded.toList = .ok plain ∧ decode encoded = .ok (value plain)

theorem encodesAs_leBytes {τ : Type} {length : Nat} (h : length ≤ 255) {bytes : τ → List UInt8}
    (hbytes : ∀ value, (bytes value).length = length) :
    EncodesAs (fun value => encodeArray (leBytes (bytes value) (hbytes value))) bytes :=
  fun value => encodeBytes_toList h (leBytes (bytes value) (hbytes value))

theorem decodesAs_decodeArray {τ : Type} {length : Nat} (h : length ≤ 255) (value : List UInt8 → τ) :
    DecodesAs (fun encoded : Vector UInt8 length => do
      let plain ← decodeArray encoded
      pure (value plain.toList)) value := by
  intro encoded
  obtain ⟨plain, hplain, hbytes⟩ := decodeArray_eq h encoded
  refine ⟨plain.toList, hbytes, ?_⟩
  simp only [hplain]
  rfl

/-! ## The law -/

/-- The substitution is one to one on bytes; the round trip of a string of at most 255 bytes makes of each byte that byte, or the
next one where position and byte reach 255, so it keeps exactly the strings without such a place; longer strings are rejected;
and the functions of a fixed width are these functions on the bytes of their values. -/
theorem scalar_substitution :
    Function.Bijective decoded ∧
    (∀ plain : List UInt8, plain.length ≤ 255 → ∃ encoded, encodeBytes plain = .ok encoded ∧
      decodeBytes encoded = .ok (plain.mapIdx fun position value =>
        if position + value.toNat < 255 then value else value + 1) ∧
      (decodeBytes encoded = .ok plain ↔
        ∀ position value, plain[position]? = some value → position + value.toNat < 255)) ∧
    (∀ bytes : List UInt8, 255 < bytes.length → encodeBytes bytes = .error (.tooLong bytes.length) ∧
      decodeBytes bytes = .error (.error (.tooLong bytes.length))) ∧
    (EncodesAs encodeU16 ofU16 ∧ DecodesAs decodeU16 toU16) ∧
    (EncodesAs encodeU32 ofU32 ∧ DecodesAs decodeU32 toU32) ∧
    (EncodesAs encodeI32 ofInt32 ∧ DecodesAs decodeI32 toInt32) ∧
    EncodesAs encodeF32 (fun value => ofU32 value.toBits) ∧
      DecodesAs decodeF32 (fun bytes => .ofBits (toU32 bytes)) := by
  refine ⟨decoded_bijective, fun plain h => ?_, fun bytes h => ⟨encodeBytes_tooLong h, decodeBytes_tooLong h⟩, ?_, ?_, ?_, ?_⟩
  · have hround := decodeBytes_encodeBytes (encodeBytes_eq h)
    refine ⟨_, encodeBytes_eq h, hround, ?_⟩
    rw [hround, Except.ok.injEq, mapIdx_returned_iff]
  · exact ⟨encodesAs_leBytes (by decide) length_ofU16, decodesAs_decodeArray (by decide) _⟩
  · exact ⟨encodesAs_leBytes (by decide) length_ofU32, decodesAs_decodeArray (by decide) _⟩
  · exact ⟨encodesAs_leBytes (by decide) length_ofInt32, decodesAs_decodeArray (by decide) _⟩
  · have hencode : EncodesAs encodeF32 fun value => ofU32 value.toBits := fun value =>
      encodeBytes_toList (by decide) (leBytes (ofU32 value.toBits) (by simp))
    have hdecode : DecodesAs decodeF32 fun bytes => .ofBits (toU32 bytes) :=
      decodesAs_decodeArray (show 4 ≤ 255 by decide) fun bytes => Binary32.ofBits (toU32 bytes)
    exact ⟨hencode, hdecode⟩

/-- A byte on the boundary comes back as the next one, while the byte before it comes back. -/
theorem scalar_substitution_boundary :
    ∃ encoded, encodeBytes [254, 254] = .ok encoded ∧ decodeBytes encoded = .ok [254, 255] := by
  obtain ⟨-, hstrings, -⟩ := scalar_substitution
  obtain ⟨encoded, hencoded, hdecoded, -⟩ := hstrings [254, 254] (by decide)
  exact ⟨encoded, hencoded, hdecoded⟩

example : encodeBytes [0] = .ok [0xBA] := by decide +kernel

example : (encodeU32 0xDEADBEEF).toList = [0x17, 0xF8, 0xE9, 0x1A] := by decide +kernel

end EncodedScalar
end P5136
