import P5136.Core.Packet
import P5136.Lib.Takes

/-!
# The wire of PIN payloads

Numbers, flags, counts and strings of a PIN payload. The reader checks each count against its limit and replaces malformed
surrogates; the writer checks the same counts and also the length of the whole payload. What the writer appends, the reader
takes and returns as it was.
-/

namespace P5136.Connector

open LittleEndian Format Act Checks

/-- The limits of the codec. -/
structure CodecLimits where
  maxPinFileBytes : Nat
  maxEncodedBlockBytes : Nat
  maxDecodedBlockBytes : Nat
  maxStringCodeUnits : Nat
  maxCollectionItems : Nat
  maxBmlDepth : Nat
  maxBmlNodes : Nat
deriving DecidableEq

def CodecLimits.default : CodecLimits where
  maxPinFileBytes := 8 * 1024 * 1024
  maxEncodedBlockBytes := 8 * 1024 * 1024
  maxDecodedBlockBytes := 16 * 1024 * 1024
  maxStringCodeUnits := 32 * 1024
  maxCollectionItems := 4 * 1024
  maxBmlDepth := 32
  maxBmlNodes := 8 * 1024

/-- Why an encoded block cannot be decoded or encoded. -/
inductive EncodedBlockError where
  | limitExceeded (kind : String) (actual maximum : Nat)
  | truncated (offset needed : Nat)
  | checksumMismatch (expected actual : UInt32)
  | decodedLengthMismatch (expected actual : Nat)
  | zlib (source : String)
  | lengthOverflow
deriving DecidableEq

/-- Why a PIN file cannot be decoded, encoded or patched. -/
inductive PinCodecError where
  | limitExceeded (kind : String) (actual maximum : Nat)
  | negativeLength (field : String) (value : Int)
  | truncated (offset needed : Nat)
  | lengthOverflow (kind : String)
  | invalidPinMagic (expected actual : UInt32)
  | wrongProtocol (expected actual : UInt16)
  | missingAuthenticationMethods
  | endpointVerificationFailed
  | storageVerificationFailed
  | duplicateBmlAttribute (key : String)
  | encodedBlock (source : EncodedBlockError)
deriving DecidableEq

def enforceLimit (kind : String) (actual maximum : Nat) : Except PinCodecError Unit :=
  ensure (¬actual > maximum) (.limitExceeded kind actual maximum)

/-- A limit is kept. -/
@[simp] theorem enforceLimit_eq_ok {kind : String} {actual maximum : Nat} {x : Unit} :
    enforceLimit kind actual maximum = .ok x ↔ actual ≤ maximum := by
  rw [enforceLimit, ensure_eq_ok, Nat.not_lt]

/-- The bytes of a payload and the offset reached. -/
abbrev WireReader := Cursor UInt8

/-- The bytes of a payload so far. The `maximum` of the source's writer stands as an argument of each call. -/
abbrev WireWriter := List UInt8

/-! ## Reading -/

namespace WireReader

def take (length : Nat) : Act WireReader PinCodecError (List UInt8) :=
  Cursor.takeOr length (fun reader => .truncated reader.offset length)

def readU8 : Act WireReader PinCodecError UInt8 := do
  let bytes ← take 1
  pure (bytes.headD 0)

/-- `read_bool`: only the byte 1 is true. -/
def readBool : Act WireReader PinCodecError Bool := do
  let byte ← readU8
  pure (byte == 1)

def readU16 : Act WireReader PinCodecError UInt16 := do
  let bytes ← take 2
  pure (toU16 bytes)

def readU32 : Act WireReader PinCodecError UInt32 := do
  let bytes ← take 4
  pure (toU32 bytes)

def readI32 : Act WireReader PinCodecError Int := do
  let bytes ← take 4
  pure (toI32 bytes)

def readCount (field : String) (maximum : Nat) : Act WireReader PinCodecError Nat := do
  let signed ← readI32
  let count ← ofExcept (orElse (Checked.toSize signed) (.negativeLength field signed))
  let _ ← ofExcept (enforceLimit field count maximum)
  pure count

def readString (limits : CodecLimits) : Act WireReader PinCodecError String := do
  let unitCount ← readCount "UTF-16 string" limits.maxStringCodeUnits
  let byteCount ← ofExcept (orElse (Checked.mul unitCount 2) (.lengthOverflow "UTF-16 string"))
  let bytes ← take byteCount
  pure (.ofList (Utf16.decodeLossy (words bytes)))

end WireReader

/-! ## Writing -/

namespace WireWriter

/-- `reserve`: so many more bytes stay within the maximum. -/
def reserve (maximum additional : Nat) (kind : String) : Act WireWriter PinCodecError Unit := do
  let output ← get
  let newLength ← ofExcept (orElse (Checked.add output.length additional) (.lengthOverflow kind))
  ofExcept (enforceLimit kind newLength maximum)

def writeBytes (maximum : Nat) (bytes : List UInt8) : Act WireWriter PinCodecError PUnit := do
  let _ ← reserve maximum bytes.length "PIN payload"
  modify (· ++ bytes)

def writeU8 (maximum : Nat) (value : UInt8) : Act WireWriter PinCodecError PUnit := do
  let _ ← reserve maximum 1 "PIN payload"
  modify (· ++ [value])

def writeBool (maximum : Nat) (value : Bool) : Act WireWriter PinCodecError PUnit :=
  writeU8 maximum (if value then 1 else 0)

def writeU16 (maximum : Nat) (value : UInt16) : Act WireWriter PinCodecError PUnit :=
  writeBytes maximum (ofU16 value)

def writeU32 (maximum : Nat) (value : UInt32) : Act WireWriter PinCodecError PUnit :=
  writeBytes maximum (ofU32 value)

def writeI32 (maximum : Nat) (value : Int) : Act WireWriter PinCodecError PUnit :=
  writeBytes maximum (ofI32 value)

def writeCount (outputMaximum value : Nat) (field : String) (maximum : Nat) : Act WireWriter PinCodecError PUnit := do
  let _ ← ofExcept (enforceLimit field value maximum)
  let signed ← ofExcept (orElse (Checked.toI32 value) (.lengthOverflow field))
  writeI32 outputMaximum signed

def writeString (maximum : Nat) (value : String) (limits : CodecLimits) : Act WireWriter PinCodecError PUnit := do
  let unitCount := (utf16Units value).length
  let _ ← ofExcept (enforceLimit "UTF-16 string" unitCount limits.maxStringCodeUnits)
  writeCount maximum unitCount "UTF-16 string" limits.maxStringCodeUnits
  let byteCount ← ofExcept (orElse (Checked.mul unitCount 2) (.lengthOverflow "UTF-16 string"))
  let _ ← reserve maximum byteCount "PIN payload"
  modify (· ++ (utf16Units value).flatMap ofU16)

end WireWriter

/-! ## What readers take -/

/-- What a reader takes from a payload. -/
abbrev ReadsAs {α : Type} (read : Act WireReader PinCodecError α) (out : List UInt8) (a : α) : Prop :=
  Takes Cursor.Presents read out a

namespace WireReader

theorem takes_take (bytes : List UInt8) : ReadsAs (take bytes.length) bytes bytes :=
  Cursor.takes_of_reads (reads_takeOr _ _) ⟨rfl, rfl⟩

theorem takes_readU8 (value : UInt8) : ReadsAs readU8 [value] value :=
  (takes_take [value]).map

theorem takes_readBool (value : Bool) : ReadsAs readBool [if value then 1 else 0] value := by
  have h := (takes_readU8 (if value then 1 else 0)).map (f := fun byte => byte == 1)
  cases value <;> exact h

theorem takes_readU16 (value : UInt16) : ReadsAs readU16 (ofU16 value) value := by
  have h := (takes_take (ofU16 value)).map (f := toU16)
  rwa [toU16_ofU16] at h

theorem takes_readU32 (value : UInt32) : ReadsAs readU32 (ofU32 value) value := by
  have h := (takes_take (ofU32 value)).map (f := toU32)
  rwa [toU32_ofU32] at h

/-- A count is taken from its bytes, when it fits. -/
theorem takes_readCount {field : String} {maximum count : Nat} (h : CountFits maximum count) :
    ReadsAs (readCount field maximum) (spellCount count) count := by
  have hi : ReadsAs readI32 (spellCount count) (count : Int) := by
    have hl : (spellCount count).length = 4 := length_bytes ..
    have ht := (takes_take (spellCount count)).map (f := toI32)
    rwa [(toI32_eq_natCast hl).2 ⟨rfl, h.2⟩, hl] at ht
  refine hi.bind_end (Takes.bind_nil (a := count) (Takes.ofExcept ?_) (Takes.bind_nil (a := ()) (Takes.ofExcept ?_)
    (Takes.pure count)))
  · rw [orElse_eq_ok, Checked.toSize_eq_some]
  · rw [enforceLimit_eq_ok]
    exact h.1

/-- A string is taken from its bytes, when it fits. -/
theorem takes_readString {limits : CodecLimits} {value : String} (h : StringFits limits.maxStringCodeUnits value) :
    ReadsAs (readString limits) (spellString value) value := by
  have hunits : (utf16Units value).length * 2 = ((utf16Units value).flatMap ofU16).length :=
    (length_flatMap_ofU16 _).symm
  have hvalue : String.ofList (Utf16.decodeLossy (words ((utf16Units value).flatMap ofU16))) =
      value := by
    rw [words_ofU16, utf16Units, Utf16.decodeLossy_of_decode (Utf16.decode_encode _), String.ofList_toList]
  refine (takes_readCount h).bind (Takes.bind_nil (a := (utf16Units value).length * 2) (Takes.ofExcept ?_) ?_)
  · rw [orElse_eq_ok, Checked.mul_eq_some]
    exact ⟨rfl, by have := h.2; omega⟩
  · rw [hunits]
    have ht := (takes_take ((utf16Units value).flatMap ofU16)).map
      (f := fun bytes => String.ofList (Utf16.decodeLossy (words bytes)))
    rwa [hvalue] at ht

end WireReader

/-! ## What writers append -/

/-- Where a writer returns, it has appended what a reader takes as a value. -/
abbrev WrittenFor {α : Type} (write : Act WireWriter PinCodecError PUnit) (read : Act WireReader PinCodecError α) (a : α) :
    Prop :=
  Appends write (fun _ out => ReadsAs read out a)

namespace WireWriter

/-- Reserving appends nothing. -/
theorem readOnly_reserve (maximum additional : Nat) (kind : String) : ReadOnly (reserve maximum additional kind) :=
  readOnly_get.andThen fun _ => (readOnly_ofExcept _).andThen fun _ => readOnly_ofExcept _

/-- Behind a reservation a writer appends what it appends. -/
theorem appends_reserve {δ : Type} {maximum additional : Nat} {kind : String} {enc : Act WireWriter PinCodecError δ}
    {F : Format δ UInt8} (h : Appends enc F) : Appends (reserve maximum additional kind >>= fun _ => enc) F := by
  refine ((appends_readOnly (readOnly_reserve maximum additional kind)).bind fun _ => h).mono ?_
  rintro d out ⟨-, o₁, o₂, ⟨-, rfl⟩, hF, rfl⟩
  exact hF

/-- Behind a check a writer appends what it appends, and the check has succeeded. -/
theorem appends_ofExcept {δ γ : Type} {r : Except PinCodecError γ} {enc : γ → Act WireWriter PinCodecError δ}
    {F : Format δ UInt8} (h : ∀ c, r = .ok c → Appends (enc c) F) :
    Appends (ofExcept r >>= enc) F := by
  intro acc d acc' he
  obtain ⟨c, s, hc, hd⟩ := bind_eq_ok.1 he
  obtain ⟨hr, rfl⟩ := ofExcept_eq_ok.1 hc
  exact h c hr acc d acc' hd

theorem appends_writeBytes (maximum : Nat) (bytes : List UInt8) :
    Appends (writeBytes maximum bytes) (fun _ out => out = bytes) :=
  appends_reserve (writes_append bytes).appends

theorem writeU8_for (maximum : Nat) (value : UInt8) : WrittenFor (writeU8 maximum value) WireReader.readU8 value := by
  refine (appends_reserve (writes_append [value]).appends).mono ?_
  rintro x out rfl
  exact WireReader.takes_readU8 value

theorem writeBool_for (maximum : Nat) (value : Bool) : WrittenFor (writeBool maximum value) WireReader.readBool value := by
  refine (appends_reserve (writes_append [if value then 1 else 0]).appends).mono ?_
  rintro x out rfl
  exact WireReader.takes_readBool value

theorem writeU16_for (maximum : Nat) (value : UInt16) :
    WrittenFor (writeU16 maximum value) WireReader.readU16 value := by
  refine (appends_writeBytes maximum _).mono ?_
  rintro x out rfl
  exact WireReader.takes_readU16 value

theorem writeU32_for (maximum : Nat) (value : UInt32) :
    WrittenFor (writeU32 maximum value) WireReader.readU32 value := by
  refine (appends_writeBytes maximum _).mono ?_
  rintro x out rfl
  exact WireReader.takes_readU32 value

/-- A count is written where it fits, as its bytes. -/
theorem appends_writeCount (outputMaximum value : Nat) (field : String) (maximum : Nat) :
    Appends (writeCount outputMaximum value field maximum)
      (fun _ out => CountFits maximum value ∧ out = spellCount value) := by
  refine appends_ofExcept fun x hmax => appends_ofExcept fun signed hsigned => ?_
  rw [enforceLimit_eq_ok] at hmax
  rw [orElse_eq_ok, Checked.toI32_eq_some] at hsigned
  obtain ⟨rfl, hlt⟩ := hsigned
  refine (appends_writeBytes outputMaximum _).mono ?_
  rintro x out rfl
  exact ⟨⟨hmax, hlt⟩, ofI32_natCast hlt⟩

theorem writeCount_for (outputMaximum value : Nat) (field : String) (maximum : Nat) :
    WrittenFor (writeCount outputMaximum value field maximum) (WireReader.readCount field maximum) value := by
  refine (appends_writeCount outputMaximum value field maximum).mono ?_
  rintro x out ⟨hfits, rfl⟩
  exact WireReader.takes_readCount hfits

theorem writeString_for (maximum : Nat) (value : String) (limits : CodecLimits) :
    WrittenFor (writeString maximum value limits) (WireReader.readString limits) value := by
  refine appends_ofExcept fun x _ => ((appends_writeCount maximum _ _ _).bind fun _ =>
    (appends_ofExcept fun n _ => appends_reserve
      (writes_append ((utf16Units value).flatMap ofU16)).appends)).mono ?_
  rintro y out ⟨-, o₁, o₂, ⟨hfits, rfl⟩, rfl, rfl⟩
  exact WireReader.takes_readString hfits

end WireWriter

end P5136.Connector
