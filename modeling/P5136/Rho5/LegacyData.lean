import P5136.Lib.LittleEndian
import P5136.Lib.Utf16
import Mathlib.Data.List.Nodup

/-!
# The checksum, the byte cipher and the compression of legacy data

What the legacy archives and the pack-folder index share. The compression library is a parameter: what it does is only that
it undoes itself.
-/

namespace P5136

/-- The zlib streams of the compression library. -/
structure Zlib where
  /-- Compress all of the data. -/
  compress : List UInt8 → Except String (List UInt8)
  /-- Decompress at most so many bytes of a stream: the bytes, and how many bytes of the stream were consumed. -/
  inflate : List UInt8 → Nat → Except String (List UInt8 × Nat)

/-- Decompression undoes compression and consumes the whole stream, when it may read past the end of the data. -/
def Zlib.Inverts (zlib : Zlib) : Prop :=
  ∀ data stream limit, zlib.compress data = .ok stream → data.length < limit →
    zlib.inflate stream limit = .ok (data, stream.length)

/-- A library that knows only some data and their streams. -/
def Zlib.ofTable (table : List (List UInt8 × List UInt8)) : Zlib where
  compress data := match table.find? (fun entry => entry.1 = data) with
    | some entry => .ok entry.2
    | none => .error "unknown data"
  inflate stream limit := match table.find? (fun entry => entry.2 = stream) with
    | some entry => .ok (entry.1.take limit, stream.length)
    | none => .error "corrupt deflate stream"

/-- Such a library undoes itself when each of its streams stands for one of its data. -/
theorem Zlib.inverts_ofTable {table : List (List UInt8 × List UInt8)} (h : (table.map Prod.snd).Nodup) :
    (ofTable table).Inverts := by
  intro data stream limit hc hlt
  have hin : (data, stream) ∈ table := by
    simp only [ofTable] at hc
    split at hc
    · rename_i entry hfind
      have hdata := List.find?_some hfind
      cases hc
      have hmem := List.mem_of_find?_eq_some hfind
      rw [decide_eq_true_eq] at hdata
      rwa [← hdata]
    · cases hc
  have hfind : table.find? (fun entry => entry.2 = stream) = some (data, stream) := by
    cases hf : table.find? (fun entry => entry.2 = stream) with
    | none => simpa using List.find?_eq_none.1 hf _ hin
    | some entry =>
      have hstream := List.find?_some hf
      rw [decide_eq_true_eq] at hstream
      have hentry := List.mem_of_find?_eq_some hf
      rw [List.inj_on_of_nodup_map h hentry hin hstream]
  simp only [ofTable, hfind, List.take_of_length_le (Nat.le_of_lt hlt)]

namespace Legacy

/-- `adler32_iter`: the zero-seeded checksum. -/
def adler32 (bytes : List UInt8) : UInt32 :=
  let sums := bytes.foldl (fun (s : UInt32 × UInt32) byte =>
    let a := (s.1 + byte.toUInt32) % 65521
    (a, (s.2 + a) % 65521)) (0, 0)
  sums.1 ||| (sums.2 <<< 16)

/-- The key of `decrypt_data`, expanded to so many words. -/
def expandKey : Nat → UInt32 → List UInt8
  | 0, _ => []
  | words + 1, current => LittleEndian.ofU32 current ++ expandKey words (current - 0x7b8c043f)

/-- The loop of `decrypt_data`: each byte is XORed with the expanded key, over and over. -/
def xorExpanded (expanded : List UInt8) : (index : Nat) → List UInt8 → List UInt8
  | _, [] => []
  | index, byte :: data => (byte ^^^ expanded.getD (index % 64) 0) :: xorExpanded expanded (index + 1) data

def decryptData (data : List UInt8) (key : UInt32) : List UInt8 :=
  xorExpanded (expandKey 16 (key ^^^ 0x8473fbc1)) 0 data

/-- The byte cipher undoes itself. -/
theorem decryptData_decryptData (data : List UInt8) (key : UInt32) : decryptData (decryptData data key) key = data := by
  unfold decryptData
  generalize expandKey 16 (key ^^^ 0x8473fbc1) = expanded
  generalize 0 = index
  induction data generalizing index with
  | nil => rfl
  | cons byte data ih =>
    simp only [xorExpanded, ih, UInt8.xor_assoc, UInt8.xor_self, UInt8.xor_zero]

end Legacy

end P5136
