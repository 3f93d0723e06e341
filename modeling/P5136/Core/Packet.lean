import P5136.Lib.Checked
import P5136.Lib.Checks
import P5136.Lib.Format
import P5136.Lib.LittleEndian
import P5136.Lib.Utf16

/-!
# Packet readers and writers

Little-endian numbers and counted UTF-16 strings on the bytes of a packet. A reader keeps its position when it fails, as far
as it has come; a writer keeps what it has appended.
-/

namespace P5136

open LittleEndian Format Checks Checked

/-- Why a packet cannot be read or written. -/
inductive PacketError where
  | truncated (offset needed : Nat)
  | negativeStringLength (length : Int)
  | stringTooLong
  | stringLengthOverflow
  | stringLimitExceeded (length maximum : Nat)
  | invalidUtf16
deriving DecidableEq

/-- A reader: the bytes of the packet and the offset reached. -/
abbrev PacketReader := Cursor UInt8

/-- A writer: the bytes written. -/
abbrev PacketWriter := List UInt8

namespace PacketReader

/-- `take`: the next bytes. -/
def take (length : Nat) : Act PacketReader PacketError (List UInt8) :=
  Cursor.takeOr length (fun reader => .truncated reader.offset length)

def readI32 : Act PacketReader PacketError Int := do
  let bytes ← take 4
  pure (toI32 bytes)

/-- `read_utf16_bounded`: a string with its number of code units before it, which is checked before the units are taken. -/
def readUtf16Bounded (maximum : Nat) : Act PacketReader PacketError String := do
  let signedLength ← readI32
  let length ← Act.ofExcept (orElse (toSize signedLength) (.negativeStringLength signedLength))
  Act.require (¬length > maximum) (.stringLimitExceeded length maximum)
  let byteLength ← Act.ofExcept (orElse (mul length 2) .stringLengthOverflow)
  let bytes ← take byteLength
  Act.ofExcept (orElse ((Utf16.decode (words bytes)).map String.ofList) .invalidUtf16)

end PacketReader

/-- `encode_utf16`: the code units of a string. -/
def utf16Units (value : String) : List UInt16 := Utf16.encode value.toList

namespace PacketWriter

def writeU16 {ε : Type} (value : UInt16) : Act PacketWriter ε PUnit := Act.modify (· ++ ofU16 value)

def writeI32 {ε : Type} (value : Int) : Act PacketWriter ε PUnit := Act.modify (· ++ ofI32 value)

/-- `write_utf16`: the number of code units, then the units. -/
def writeUtf16 (value : String) : Act PacketWriter PacketError PUnit := do
  let units := utf16Units value
  let length ← Act.ofExcept (orElse (toI32 units.length) .stringTooLong)
  writeI32 length
  writeAll writeU16 units

end PacketWriter

/-! ## The format of numbers and strings -/

/-- The bytes of a count: a signed 32-bit number that is not negative. -/
def spellCount (n : Nat) : List UInt8 := bytes 4 n

/-- The bytes of a string: the number of its code units, then the units. -/
def spellString (value : String) : List UInt8 :=
  spellCount (utf16Units value).length ++ (utf16Units value).flatMap ofU16

/-- A count that a signed 32-bit number holds, within a bound. -/
def CountFits (maximum n : Nat) : Prop := n ≤ maximum ∧ n < 2 ^ 31

/-- A string with a number of code units that fits. -/
def StringFits (maximum : Nat) (value : String) : Prop := CountFits maximum (utf16Units value).length

namespace PacketReader

/-- `take` reads as many bytes as it is asked for. -/
theorem reads_take (length : Nat) : Reads (take length) (fun l out => l.length = length ∧ out = l) :=
  reads_takeOr length _

/-- Four bytes are read as the number they stand for. -/
theorem reads_readI32 : Reads readI32 (fun i out => out.length = 4 ∧ i = toI32 out) := by
  refine ((reads_take 4).bind fun l => reads_pure (toI32 l)).congr ?_
  intro i out
  constructor
  · rintro ⟨l, o₁, o₂, ⟨hl, rfl⟩, ⟨rfl, rfl⟩, rfl⟩
    exact ⟨by simpa using hl, by rw [List.append_nil]⟩
  · rintro ⟨hl, rfl⟩
    exact ⟨out, out, [], ⟨hl, rfl⟩, ⟨rfl, rfl⟩, by simp⟩

end PacketReader

namespace PacketAux

/-- A signed number read and found not negative is a count. -/
theorem count_iff {ε : Type} {i : Int} {n : Nat} {out : List UInt8} {e : ε} :
    (out.length = 4 ∧ i = toI32 out) ∧ orElse (toSize i) e = .ok n ↔
      i = (n : Int) ∧ n < 2 ^ 31 ∧ out = spellCount n := by
  rw [orElse_eq_ok, toSize_eq_some]
  constructor
  · rintro ⟨⟨hl, rfl⟩, hn⟩
    obtain ⟨ho, hlt⟩ := (toI32_eq_natCast hl).1 hn
    exact ⟨hn, hlt, ho⟩
  · rintro ⟨rfl, hlt, rfl⟩
    have hl : (spellCount n).length = 4 := length_bytes ..
    exact ⟨⟨hl, ((toI32_eq_natCast hl).2 ⟨rfl, hlt⟩).symm⟩, rfl⟩

/-- The decoder accepts exactly the bytes of the units of the string it returns. -/
theorem decode_iff {ε : Type} {n : Nat} {l : List UInt8} {s : String} {e : ε} :
    l.length = n * 2 ∧ orElse ((Utf16.decode (words l)).map String.ofList) e = .ok s ↔
      (utf16Units s).length = n ∧ l = (utf16Units s).flatMap ofU16 := by
  rw [orElse_eq_ok, Option.map_eq_some_iff]
  constructor
  · rintro ⟨hl, cs, hcs, rfl⟩
    obtain ⟨hw, hb⟩ := ofU16_words hl
    have hu : utf16Units (String.ofList cs) = words l := by
      rw [utf16Units, String.toList_ofList]
      exact (Utf16.decode_eq_some.1 hcs).symm
    exact ⟨by rw [hu, hw], by rw [hu, hb]⟩
  · rintro ⟨rfl, rfl⟩
    refine ⟨length_flatMap_ofU16 _, s.toList, ?_, String.ofList_toList⟩
    rw [words_ofU16]
    exact Utf16.decode_encode _

end PacketAux

namespace PacketReader

/-- A bounded string is read exactly from its bytes. -/
theorem reads_readUtf16Bounded {maximum : Nat} :
    Reads (readUtf16Bounded maximum) (spelled (StringFits maximum) spellString) := by
  refine (reads_readI32.bind fun i => (reads_ofExcept _).bind fun n => (reads_require _ _).bind fun _ =>
    (reads_ofExcept _).bind fun m => (reads_take m).bind fun l => reads_ofExcept _).congr ?_
  intro s out
  constructor
  · rintro ⟨i, o₁, o₂, hi, ⟨n, o₃, o₄, ⟨hn, rfl⟩, ⟨-, o₅, o₆, ⟨hle, rfl⟩, ⟨m, o₇, o₈, ⟨hm, rfl⟩, ⟨l, o₉, o₁₀, ⟨hl, rfl⟩,
      ⟨hs, rfl⟩, rfl⟩, rfl⟩, rfl⟩, rfl⟩, rfl⟩
    obtain ⟨-, hlt, rfl⟩ := PacketAux.count_iff.1 ⟨hi, hn⟩
    rw [orElse_eq_ok, mul_eq_some] at hm
    obtain ⟨rfl, -⟩ := hm
    obtain ⟨rfl, rfl⟩ := PacketAux.decode_iff.1 ⟨hl, hs⟩
    exact ⟨⟨by omega, hlt⟩, by simp [spellString]⟩
  · rintro ⟨⟨hle, hlt⟩, rfl⟩
    obtain ⟨hi, hn⟩ := (PacketAux.count_iff (e := PacketError.negativeStringLength (utf16Units s).length)).2 ⟨rfl, hlt, rfl⟩
    obtain ⟨hl, hs⟩ := (PacketAux.decode_iff (e := PacketError.invalidUtf16)).2 ⟨rfl, rfl⟩
    refine ⟨_, _, _, hi, ⟨_, [], _, ⟨hn, rfl⟩, ⟨⟨⟩, [], _, ⟨by omega, rfl⟩, ⟨(utf16Units s).length * 2, [], _, ⟨?_, rfl⟩,
      ⟨_, _, [], ⟨hl, rfl⟩, ⟨hs, rfl⟩, rfl⟩, rfl⟩, rfl⟩, rfl⟩, ?_⟩
    · rw [orElse_eq_ok, mul_eq_some]
      exact ⟨rfl, by omega⟩
    · simp [spellString]

end PacketReader

namespace PacketWriter

/-- A string is written exactly as its bytes, when its length is a signed 32-bit number. -/
theorem writes_writeUtf16 (value : String) :
    Writes (writeUtf16 value) (fun _ out => (utf16Units value).length < 2 ^ 31 ∧ out = spellString value) := by
  have hunits : Writes (writeAll (writeU16 : UInt16 → Act PacketWriter PacketError PUnit) (utf16Units value))
      (fun _ out => (∀ u ∈ utf16Units value, True) ∧ out = (utf16Units value).flatMap ofU16) :=
    writes_writeAll (fun u => (writes_append (ofU16 u)).congr fun _ _ => by simp) (utf16Units value)
  refine ((writes_ofExcept _).bind fun i => (writes_append (ofI32 i)).bind fun _ => hunits).congr ?_
  intro x out
  constructor
  · rintro ⟨i, o₁, o₂, ⟨hi, rfl⟩, ⟨-, o₃, o₄, rfl, ⟨-, rfl⟩, rfl⟩, rfl⟩
    rw [orElse_eq_ok, toI32_eq_some] at hi
    obtain ⟨rfl, hlt⟩ := hi
    exact ⟨hlt, by rw [ofI32_natCast hlt]; rfl⟩
  · rintro ⟨hlt, rfl⟩
    refine ⟨((utf16Units value).length : Int), [], _, ⟨?_, rfl⟩, ⟨⟨⟩, _, _, rfl, ⟨fun _ _ => trivial, rfl⟩, rfl⟩, ?_⟩
    · rw [orElse_eq_ok, toI32_eq_some]
      exact ⟨rfl, hlt⟩
    · rw [ofI32_natCast hlt]
      rfl

end PacketWriter

end P5136
