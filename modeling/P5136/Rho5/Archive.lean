import P5136.Lib.Checks
import P5136.Lib.Checked
import P5136.Rho5.LegacyData

/-!
# RHO5 archives

What the writer and the reader of an archive share: the limits, the regions, where the header and the file table of an archive
of some name begin, the normal form of a path and the alignment of data. The archives lie in one directory, so that their
names stand for their paths. The compression, the composition of Unicode texts, the message digest and the key schedule are
parameters.
-/

namespace P5136

open Checks Checked

/-- What archives take from other libraries, and the key schedule. -/
structure Rho5Library where
  zlib : Zlib
  /-- Canonical composition of a text. -/
  nfc : List Char → List Char
  md5 : List UInt8 → Vector UInt8 16
  /-- The keys of the header and of the file table, from the name of the archive and the mixing string. -/
  headerKey : String → String → Vector UInt8 16
  tableKey : String → String → Vector UInt8 16
  /-- `packed_file_key_with_mixing`. -/
  packedFileKey : Vector UInt8 16 → String → String → Vector UInt8 16
  /-- The words that the `KeyProvider` of a key yields, in order. -/
  keyWords : Vector UInt8 16 → Nat → UInt32

/-- The key schedules of the regions. -/
inductive Rho5Region where
  | korea
  | china
deriving DecidableEq

def Rho5Region.mixingString : Rho5Region → String
  | .korea => "y&errfV6GRS!e8JL"
  | .china => "d$Bjgfc8@dH4TQ?k"

/-- The limits while archives are scanned, read and written. -/
structure Rho5Limits where
  maxDirectoryEntries : Nat
  maxArchives : Nat
  maxArchiveBytes : Nat
  maxArchiveNameBytes : Nat
  maxFilesPerArchive : Nat
  maxTotalFiles : Nat
  maxPathUtf16Units : Nat
  maxNormalizedPathBytes : Nat
  maxTableBytes : Nat
  maxCompressedBytes : Nat
  maxPlaintextBytes : Nat
  maxTotalDeclaredCompressedBytes : Nat
  maxTotalDeclaredPlaintextBytes : Nat
deriving DecidableEq

def Rho5Limits.default : Rho5Limits where
  maxDirectoryEntries := 8192
  maxArchives := 512
  maxArchiveBytes := 4 * 1024 * 1024 * 1024
  maxArchiveNameBytes := 255
  maxFilesPerArchive := 250000
  maxTotalFiles := 1000000
  maxPathUtf16Units := 4096
  maxNormalizedPathBytes := 16 * 1024
  maxTableBytes := 256 * 1024 * 1024
  maxCompressedBytes := 512 * 1024 * 1024
  maxPlaintextBytes := 1024 * 1024 * 1024
  maxTotalDeclaredCompressedBytes := 64 * 1024 * 1024 * 1024
  maxTotalDeclaredPlaintextBytes := 128 * 1024 * 1024 * 1024

/-- Where the header and the file table of an archive begin. -/
structure Rho5Offsets where
  header : Nat
  table : Nat
deriving DecidableEq

/-- Why an archive cannot be read. Paths of archives are their names. -/
inductive Rho5Error where
  | tooManyDirectoryEntries (limit : Nat)
  | tooManyArchives (limit : Nat)
  | archiveTooLarge (path : String) (size limit : Nat)
  | archiveNameTooLong (path : String) (limit : Nat)
  | unsupportedArchiveName (name : String)
  | archiveTruncated (path : String) (needed actual : Nat)
  | archiveChanged (path : String)
  | headerChecksumMismatch (path : String) (actual expected : Int32)
  | unsupportedVersion (path : String) (version : UInt8)
  | negativeFileCount (path : String) (count : Int32)
  | tooManyFiles (path : String) (count limit : Nat)
  | tooManyTotalFiles (limit : Nat)
  | invalidPathLength (path : String) (entryIndex : Nat) (units : Int32)
  | pathTooLong (path : String) (entryIndex units limit : Nat)
  | invalidUtf16Path (path : String) (entryIndex : Nat)
  | invalidNormalizedPath (path reason : String)
  | normalizedPathTooLong (limit : Nat)
  | tableTooLarge (path : String) (limit : Nat)
  | entryChecksumMismatch (path entryPath : String) (actual expected : Int32)
  | negativeBlockOffset (path entryPath : String) (offset : Int32)
  | negativeCompressedSize (path entryPath : String) (size : Int32)
  | negativePlaintextSize (path entryPath : String) (size : Int32)
  | compressedSizeTooLarge (path entryPath : String) (size limit : Nat)
  | plaintextSizeTooLarge (path entryPath : String) (size limit : Nat)
  | entryOutOfBounds (path entryPath : String) (offset stop archiveLength : Nat)
  | totalDeclaredCompressedSizeTooLarge (size limit : Nat)
  | totalDeclaredPlaintextSizeTooLarge (size limit : Nat)
  | entryNotFound (path : String)
  | duplicateEntry (path : String) (count : Nat)
  | decompressedSizeLimitExceeded (path : String) (expected : Nat)
  | plaintextSizeMismatch (path : String) (actual expected : Nat)
  | trailingCompressedData (path : String) (consumed compressedSize : Nat)
  | plaintextMd5Mismatch (path : String)
  | arithmeticOverflow (field : String)
  | invalidLimits (field : String)
  | io (operation path : String)
  | decompression (path source : String)
deriving DecidableEq

namespace Rho5

/-- `RHO5_VERSION`. -/
def version : UInt8 := 2

/-- `DATA_ALIGNMENT`. -/
def dataAlignment : Nat := 0x400

/-- `DOUBLE_ENCRYPTED_PREFIX`. -/
def doubleEncryptedPrefix : Nat := 0x400

/-- `TABLE_FIXED_ENTRY_BYTES`. -/
def tableFixedEntryBytes : Nat := 0x28

/-- `P5136_PACKED_ENTRY_FLAGS`. -/
def packedEntryFlags : Int32 := 7

def toAsciiLowercase (s : String) : String := String.ofList (s.toList.map Char.toLower)

def isAscii (s : String) : Bool := s.toList.all (fun c => c.toNat < 128)

/-- The bytes of a text. -/
def utf8Bytes (s : String) : List UInt8 := s.toList.flatMap String.utf8EncodeChar

/-- `validate_limits`: no limit is zero. -/
def validateLimits (limits : Rho5Limits) : Except Rho5Error Unit := do
  all (fun (field : String × Nat) => if field.2 = 0 then .error (.invalidLimits field.1) else .ok ())
    [("max_directory_entries", limits.maxDirectoryEntries), ("max_archives", limits.maxArchives),
      ("max_archive_name_bytes", limits.maxArchiveNameBytes), ("max_files_per_archive", limits.maxFilesPerArchive),
      ("max_total_files", limits.maxTotalFiles), ("max_path_utf16_units", limits.maxPathUtf16Units),
      ("max_normalized_path_bytes", limits.maxNormalizedPathBytes), ("max_compressed_bytes", limits.maxCompressedBytes),
      ("max_plaintext_bytes", limits.maxPlaintextBytes)]
  ensure (¬(limits.maxArchiveBytes = 0 ∨ limits.maxTableBytes = 0 ∨ limits.maxTotalDeclaredCompressedBytes = 0 ∨
    limits.maxTotalDeclaredPlaintextBytes = 0)) (.invalidLimits "u64 resource limit")

/-- The sum of bytes from a first one on. -/
def byteSum : (sum : Nat) → List UInt8 → Option Nat
  | sum, [] => some sum
  | sum, byte :: bytes => (add sum byte.toNat).bind (fun sum => byteSum sum bytes)

def archiveOffsets (archiveName : String) : Except Rho5Error Rho5Offsets := do
  ensure (¬(archiveName = "" ∨ isAscii archiveName = false)) (.unsupportedArchiveName archiveName)
  let sum ← orElse (byteSum 0 (utf8Bytes (toAsciiLowercase archiveName)))
    (.arithmeticOverflow "archive-name checksum")
  let header ← orElse (add (sum % 0x138) 0x1e) (.arithmeticOverflow "header offset")
  let tripled ← orElse (mul sum 3) (.arithmeticOverflow "file-table offset")
  let table ← orElse (add header (tripled % 0xd4 + 0x2a)) (.arithmeticOverflow "file-table position")
  pure ⟨header, table⟩

/-- `align_up`: the bits of the mask are cleared. -/
def alignUp (value alignment : Nat) : Except Rho5Error Nat := do
  let mask ← orElse (sub alignment 1) (.arithmeticOverflow "RHO5 alignment")
  let sum ← orElse (add value mask) (.arithmeticOverflow "aligned RHO5 offset")
  pure (sum - (sum &&& mask))

def ensureFileRange (path : String) (archiveLength offset size : Nat) : Except Rho5Error Unit := do
  let needed ← orElse (add offset size) (.arithmeticOverflow "RHO5 file range")
  ensure (¬needed > archiveLength) (.archiveTruncated path needed archiveLength)

/-! ## Paths -/

/-- The character that no path holds. -/
def nul : Char := Char.ofNat 0

/-- The other separator of segments. -/
def backslash : Char := Char.ofNat 0x5c

/-- The segments of a path that stay. -/
def collectSegments (path : String) : List (List Char) → Except Rho5Error (List (List Char))
  | [] => .ok []
  | segment :: rest =>
    if segment = [] ∨ segment = ['.'] then collectSegments path rest
    else if segment = ['.', '.'] then .error (.invalidNormalizedPath path "parent traversal is not allowed")
    else do
      let segments ← collectSegments path rest
      pure (segment :: segments)

def normalizePath (library : Rho5Library) (path : String) (limits : Rho5Limits) : Except Rho5Error String := do
  ensure (nul ∉ path.toList) (.invalidNormalizedPath path "NUL is not allowed")
  let replaced := path.toList.map (fun c => if c = backslash then '/' else c)
  let segments ← collectSegments path (replaced.splitOn '/')
  ensure (segments ≠ []) (.invalidNormalizedPath path "path is empty after normalization")
  let normalized := String.ofList (library.nfc (['/'].intercalate segments))
  ensure (¬normalized.utf8ByteSize > limits.maxNormalizedPathBytes) (.normalizedPathTooLong limits.maxNormalizedPathBytes)
  pure normalized

/-- The UTF-16 units of a path. -/
def pathUnits (path : String) : List UInt16 := Utf16.encode path.toList

/-- The checksum of the table fields of an entry. -/
def entryChecksum (flags blockOffset plaintextSize compressedSize : Int32) (plaintextMd5 : Vector UInt8 16) : Int32 :=
  plaintextMd5.toList.foldl (fun checksum byte => checksum + byte.toUInt32.toInt32)
    (flags + blockOffset + plaintextSize + compressedSize)

end Rho5

end P5136
