import P5136.Lib.Act
import P5136.Lib.Window
import P5136.Lib.WordCipher
import P5136.Rho5.Archive

/-!
# Reading RHO5 archives

The decrypting reader, the header and the file table of an archive, the index of all archives of a directory, and the extraction
of an entry. The files of a directory can be read and do not change.
-/

namespace P5136

open Checks Checked Act

/-- A file in a directory. -/
structure Rho5File where
  name : String
  isFile : Bool
  bytes : List UInt8
deriving DecidableEq

/-- Metadata of an indexed entry. -/
structure Rho5Entry where
  normalizedPath : String
  rawPath : String
  archivePath : String
  archiveName : String
  archiveLength : Nat
  physicalDataOffset : Nat
  compressedSize : Nat
  plaintextSize : Nat
  plaintextMd5 : Vector UInt8 16
  flags : Int32
  key : Vector UInt8 16
deriving DecidableEq

/-- An index of every archive in one directory. -/
structure Rho5Directory where
  archiveCount : Nat
  entries : List Rho5Entry
  limits : Rho5Limits

/-- A reader that decrypts word by word: what is left of the file, the key words with the index of the next one, the bytes of
the decrypted word that are still to be read, and the position. -/
structure DecryptReader where
  file : List UInt8
  words : Nat → UInt32
  wordIndex : Nat
  decryptedWord : List UInt8
  logicalPosition : Nat

namespace DecryptReader

/-- A reader of an archive from a position on. -/
def ofArchive (bytes : List UInt8) (words : Nat → UInt32) (logicalPosition : Nat) : DecryptReader where
  file := bytes.drop logicalPosition
  words := words
  wordIndex := 0
  decryptedWord := []
  logicalPosition := logicalPosition

/-- Decrypt the next word when none is left. -/
def refill (path operation : String) : Act DecryptReader Rho5Error PUnit := fun reader =>
  match reader.decryptedWord with
  | _ :: _ => (.ok ⟨⟩, reader)
  | [] =>
    if 4 ≤ reader.file.length then
      (.ok ⟨⟩, { reader with
        file := reader.file.drop 4
        wordIndex := reader.wordIndex + 1
        decryptedWord := LittleEndian.ofU32 (LittleEndian.toU32 (reader.file.take 4) - reader.words reader.wordIndex) })
    else (.error (.io operation path), reader)

/-- The next byte. -/
def nextByte (path operation : String) : Act DecryptReader Rho5Error UInt8 := do
  refill path operation
  let reader ← get
  let position ← ofExcept (orElse (add reader.logicalPosition 1)
    (.arithmeticOverflow "decrypted RHO5 stream position"))
  modify (fun reader => { reader with decryptedWord := reader.decryptedWord.tail, logicalPosition := position })
  pure (reader.decryptedWord.headD 0)

/-- `read_exact`, byte by byte. -/
def readExact (path operation : String) : (count : Nat) → Act DecryptReader Rho5Error (List UInt8)
  | 0 => pure []
  | count + 1 => do
    let byte ← nextByte path operation
    let bytes ← readExact path operation count
    pure (byte :: bytes)

def readI32 (path operation : String) : Act DecryptReader Rho5Error Int32 := do
  let bytes ← readExact path operation 4
  pure (LittleEndian.toInt32 bytes)

def readU8 (path operation : String) : Act DecryptReader Rho5Error UInt8 := do
  let bytes ← readExact path operation 1
  pure (bytes.headD 0)

end DecryptReader

namespace Rho5

/-- What the header of an archive says. -/
structure ArchiveDescriptor where
  archiveName : String
  archiveLength : Nat
  offsets : Rho5Offsets
  fileCount : Nat

/-- The table fields of an entry. -/
structure RawEntryMetadata where
  entryChecksum : Int32
  unknown : Int32
  blockOffset : Int32
  plaintextSize : Int32
  compressedSize : Int32
  plaintextMd5 : Vector UInt8 16

/-- An entry of the table. -/
structure PendingEntry where
  normalizedPath : String
  rawPath : String
  flags : Int32
  blockOffset : Nat
  compressedSize : Nat
  plaintextSize : Nat
  plaintextMd5 : Vector UInt8 16
deriving DecidableEq

/-- The table, and where the data begins. -/
structure PendingTable where
  entries : List PendingEntry
  dataBase : Nat
deriving DecidableEq

/-- The digest that sixteen bytes are. -/
def toMd5 (bytes : List UInt8) : Vector UInt8 16 := Vector.ofFn (fun i => bytes.getD i.val 0)

/-! ## The header -/

/-- The fields of the header: its checksum, the version and the number of files. -/
def readHeader (path : String) : Act DecryptReader Rho5Error (Int32 × UInt8 × Int32) := do
  let headerChecksum ← DecryptReader.readI32 path "read RHO5 header checksum"
  let version ← DecryptReader.readU8 path "read RHO5 version"
  let fileCount ← DecryptReader.readI32 path "read RHO5 file count"
  pure (headerChecksum, version, fileCount)

def readArchiveDescriptor (library : Rho5Library) (file : Rho5File) (region : Rho5Region) (limits : Rho5Limits) :
    Except Rho5Error ArchiveDescriptor := do
  let archiveLength := file.bytes.length
  ensure (¬archiveLength > limits.maxArchiveBytes) (.archiveTooLarge file.name archiveLength limits.maxArchiveBytes)
  let archiveName := file.name
  ensure (¬archiveName.utf8ByteSize > limits.maxArchiveNameBytes)
    (.archiveNameTooLong file.name limits.maxArchiveNameBytes)
  let offsets ← archiveOffsets archiveName
  ensureFileRange file.name archiveLength offsets.header 9
  ensureFileRange file.name archiveLength offsets.table 1
  let header ← (readHeader file.name (.ofArchive file.bytes
    (library.keyWords (library.headerKey archiveName region.mixingString)) offsets.header)).1
  let expected := header.2.1.toUInt32.toInt32 + header.2.2
  ensure (header.1 = expected) (.headerChecksumMismatch file.name header.1 expected)
  ensure (header.2.1 = version) (.unsupportedVersion file.name header.2.1)
  let fileCount ← orElse (ofInt32 header.2.2) (.negativeFileCount file.name header.2.2)
  ensure (¬fileCount > limits.maxFilesPerArchive) (.tooManyFiles file.name fileCount limits.maxFilesPerArchive)
  let minimumTableBytes ← orElse (mul fileCount tableFixedEntryBytes)
    (.arithmeticOverflow "minimum RHO5 table length")
  ensure (¬minimumTableBytes > limits.maxTableBytes) (.tableTooLarge file.name limits.maxTableBytes)
  ensureFileRange file.name archiveLength offsets.table minimumTableBytes
  pure ⟨archiveName, archiveLength, offsets, fileCount⟩

/-! ## The table -/

def readEntryPath (path : String) (entryIndex : Nat) (limits : Rho5Limits) : Act DecryptReader Rho5Error String := do
  let unitsI32 ← DecryptReader.readI32 path "read RHO5 path length"
  let units ← ofExcept (orElse (ofInt32 unitsI32) (.invalidPathLength path entryIndex unitsI32))
  require (units ≠ 0) (.invalidPathLength path entryIndex unitsI32)
  require (¬units > limits.maxPathUtf16Units) (.pathTooLong path entryIndex units limits.maxPathUtf16Units)
  let byteCount ← ofExcept (orElse (mul units 2) (.arithmeticOverflow "UTF-16 path byte count"))
  let bytes ← DecryptReader.readExact path "read RHO5 UTF-16 path" byteCount
  ofExcept (orElse ((Utf16.decode (LittleEndian.words bytes)).map String.ofList)
    (.invalidUtf16Path path entryIndex))

def readEntryMetadata (path : String) : Act DecryptReader Rho5Error RawEntryMetadata := do
  let entryChecksum ← DecryptReader.readI32 path "read RHO5 entry checksum"
  let unknown ← DecryptReader.readI32 path "read RHO5 entry flags"
  let blockOffset ← DecryptReader.readI32 path "read RHO5 entry block offset"
  let plaintextSize ← DecryptReader.readI32 path "read RHO5 plaintext size"
  let compressedSize ← DecryptReader.readI32 path "read RHO5 compressed size"
  let plaintextMd5 ← DecryptReader.readExact path "read RHO5 plaintext MD5" 16
  pure ⟨entryChecksum, unknown, blockOffset, plaintextSize, compressedSize, toMd5 plaintextMd5⟩

def verifyEntryChecksum (path normalizedPath : String) (metadata : RawEntryMetadata) : Except Rho5Error Unit :=
  let expected := entryChecksum metadata.unknown metadata.blockOffset metadata.plaintextSize metadata.compressedSize
    metadata.plaintextMd5
  ensure (metadata.entryChecksum = expected)
    (.entryChecksumMismatch path normalizedPath metadata.entryChecksum expected)

/-- What `read_pending_entry` makes of the path and the fields of an entry. -/
def pendingEntry (path : String) (limits : Rho5Limits) (rawPath normalizedPath : String) (metadata : RawEntryMetadata) :
    Except Rho5Error PendingEntry := do
  verifyEntryChecksum path normalizedPath metadata
  let blockOffset ← orElse (ofInt32 metadata.blockOffset)
    (.negativeBlockOffset path normalizedPath metadata.blockOffset)
  let compressedSize ← orElse (ofInt32 metadata.compressedSize)
    (.negativeCompressedSize path normalizedPath metadata.compressedSize)
  let plaintextSize ← orElse (ofInt32 metadata.plaintextSize)
    (.negativePlaintextSize path normalizedPath metadata.plaintextSize)
  ensure (¬compressedSize > limits.maxCompressedBytes)
    (.compressedSizeTooLarge path normalizedPath compressedSize limits.maxCompressedBytes)
  ensure (¬plaintextSize > limits.maxPlaintextBytes)
    (.plaintextSizeTooLarge path normalizedPath plaintextSize limits.maxPlaintextBytes)
  pure { normalizedPath := normalizedPath, rawPath := rawPath, flags := metadata.unknown, blockOffset := blockOffset,
         compressedSize := compressedSize, plaintextSize := plaintextSize, plaintextMd5 := metadata.plaintextMd5 }

def readPendingEntry (library : Rho5Library) (path : String) (entryIndex : Nat) (limits : Rho5Limits) :
    Act DecryptReader Rho5Error PendingEntry := do
  let rawPath ← readEntryPath path entryIndex limits
  let normalizedPath ← ofExcept (normalizePath library rawPath limits)
  let metadata ← readEntryMetadata path
  ofExcept (pendingEntry path limits rawPath normalizedPath metadata)

/-- The loop of `read_archive_table`. -/
def readEntries (library : Rho5Library) (path : String) (tableOffset : Nat) (limits : Rho5Limits) :
    (remaining entryIndex : Nat) → Act DecryptReader Rho5Error (List PendingEntry)
  | 0, _ => pure []
  | remaining + 1, entryIndex => do
    let entry ← readPendingEntry library path entryIndex limits
    let reader ← get
    let tableBytes ← ofExcept (orElse (sub reader.logicalPosition tableOffset)
      (.arithmeticOverflow "RHO5 table length"))
    require (¬tableBytes > limits.maxTableBytes) (.tableTooLarge path limits.maxTableBytes)
    let entries ← readEntries library path tableOffset limits remaining (entryIndex + 1)
    pure (entry :: entries)

def readArchiveTable (library : Rho5Library) (file : Rho5File) (descriptor : ArchiveDescriptor) (region : Rho5Region)
    (limits : Rho5Limits) : Except Rho5Error PendingTable := do
  let read := readEntries library file.name descriptor.offsets.table limits descriptor.fileCount 0 (.ofArchive file.bytes
    (library.keyWords (library.tableKey descriptor.archiveName region.mixingString)) descriptor.offsets.table)
  let entries ← read.1
  let dataBase ← alignUp read.2.logicalPosition dataAlignment
  ensure (¬dataBase > descriptor.archiveLength) (.archiveTruncated file.name dataBase descriptor.archiveLength)
  pure ⟨entries, dataBase⟩

/-! ## The index -/

/-- The step of the loop of `finalize_entries`. -/
def finalizeEntry (library : Rho5Library) (file : Rho5File) (descriptor : ArchiveDescriptor) (dataBase : Nat)
    (region : Rho5Region) (pending : PendingEntry) : Except Rho5Error Rho5Entry := do
  let relativeOffset ← orElse (mul pending.blockOffset dataAlignment)
    (.arithmeticOverflow "RHO5 entry block offset")
  let physicalDataOffset ← orElse (add dataBase relativeOffset)
    (.arithmeticOverflow "RHO5 entry physical offset")
  let dataEnd ← orElse (add physicalDataOffset pending.compressedSize)
    (.arithmeticOverflow "RHO5 entry data end")
  ensure (¬dataEnd > descriptor.archiveLength)
    (.entryOutOfBounds file.name pending.normalizedPath physicalDataOffset dataEnd descriptor.archiveLength)
  pure { normalizedPath := pending.normalizedPath, rawPath := pending.rawPath, archivePath := file.name,
         archiveName := descriptor.archiveName, archiveLength := descriptor.archiveLength,
         physicalDataOffset := physicalDataOffset, compressedSize := pending.compressedSize,
         plaintextSize := pending.plaintextSize, plaintextMd5 := pending.plaintextMd5, flags := pending.flags,
         key := library.packedFileKey pending.plaintextMd5 pending.rawPath region.mixingString }

def finalizeEntries (library : Rho5Library) (file : Rho5File) (descriptor : ArchiveDescriptor) (pending : PendingTable)
    (region : Rho5Region) : Except Rho5Error (List Rho5Entry) :=
  Checks.traverse (finalizeEntry library file descriptor pending.dataBase region) pending.entries

def parseArchive (library : Rho5Library) (file : Rho5File) (region : Rho5Region) (limits : Rho5Limits) :
    Except Rho5Error (List Rho5Entry) := do
  let descriptor ← readArchiveDescriptor library file region limits
  let pending ← readArchiveTable library file descriptor region limits
  finalizeEntries library file descriptor pending region

def addDeclaredSize (total size limit : Nat) (compressed : Bool) : Except Rho5Error Nat := do
  let newTotal ← orElse (add total size) (.arithmeticOverflow "total declared RHO5 size")
  ensure (¬newTotal > limit) (if compressed then .totalDeclaredCompressedSizeTooLarge newTotal limit
    else .totalDeclaredPlaintextSizeTooLarge newTotal limit)
  pure newTotal

/-- The totals of compressed and plaintext sizes with those of entries. -/
def addDeclaredSizes (limits : Rho5Limits) : (compressed plaintext : Nat) → List Rho5Entry → Except Rho5Error (Nat × Nat)
  | compressed, plaintext, [] => pure (compressed, plaintext)
  | compressed, plaintext, entry :: entries => do
    let compressed ← addDeclaredSize compressed entry.compressedSize limits.maxTotalDeclaredCompressedBytes true
    let plaintext ← addDeclaredSize plaintext entry.plaintextSize limits.maxTotalDeclaredPlaintextBytes false
    addDeclaredSizes limits compressed plaintext entries

/-- `index_archives`, from the entries and totals of the archives before. -/
def indexArchives (library : Rho5Library) (region : Rho5Region) (limits : Rho5Limits) :
    (entries : List Rho5Entry) → (compressed plaintext : Nat) → List Rho5File → Except Rho5Error (List Rho5Entry)
  | entries, _, _, [] => pure entries
  | entries, compressed, plaintext, file :: files => do
    let archiveEntries ← parseArchive library file region limits
    let newTotal ← orElse (add entries.length archiveEntries.length)
      (.arithmeticOverflow "total indexed file count")
    ensure (¬newTotal > limits.maxTotalFiles) (.tooManyTotalFiles limits.maxTotalFiles)
    let totals ← addDeclaredSizes limits compressed plaintext archiveEntries
    indexArchives library region limits (entries ++ archiveEntries) totals.1 totals.2 files

/-- `Path::extension`: what follows the last dot of a name that has something before it. -/
def extension (name : String) : Option (List Char) :=
  match name.toList.reverse.dropWhile (· ≠ '.') with
  | [] => none
  | _ :: before => if name = ".." ∨ before = [] then none else some (name.toList.reverse.takeWhile (· ≠ '.')).reverse

def hasRho5Extension (name : String) : Bool :=
  match extension name with
  | some extension => extension.map Char.toLower = "rho5".toList
  | none => false

/-- The loop of `collect_archive_paths`, from what was scanned and found before. -/
def collectFrom (limits : Rho5Limits) :
    (scannedCount : Nat) → (archives : List Rho5File) → List Rho5File → Except Rho5Error (List Rho5File)
  | _, archives, [] => pure archives
  | scannedCount, archives, file :: files => do
    let scannedCount ← orElse (add scannedCount 1) (.arithmeticOverflow "directory entry count")
    ensure (¬scannedCount > limits.maxDirectoryEntries) (.tooManyDirectoryEntries limits.maxDirectoryEntries)
    let archives := if file.isFile = true ∧ hasRho5Extension file.name = true then archives ++ [file] else archives
    ensure (¬archives.length > limits.maxArchives) (.tooManyArchives limits.maxArchives)
    collectFrom limits scannedCount archives files

/-- The order of archives: by the name in lower case, then by the name. -/
def archiveOrder (left right : Rho5File) : Bool :=
  ((compare (toAsciiLowercase left.name) (toAsciiLowercase right.name)).then (compare left.name right.name)).isLE

/-- `collect_archive_paths`. -/
def collectArchives (files : List Rho5File) (limits : Rho5Limits) : Except Rho5Error (List Rho5File) := do
  let archives ← collectFrom limits 0 [] files
  pure (archives.mergeSort archiveOrder)

/-! ## Extraction -/

def openArchive (files : List Rho5File) (path : String) : Except Rho5Error (List UInt8) :=
  orElse ((files.find? (fun file => file.name = path)).map Rho5File.bytes) (.io "open RHO5 archive" path)

def readDecryptedCompressed (library : Rho5Library) (files : List Rho5File) (entry : Rho5Entry) :
    Except Rho5Error (List UInt8) := do
  let archive ← openArchive files entry.archivePath
  ensure (archive.length = entry.archiveLength) (.archiveChanged entry.archivePath)
  let dataEnd ← orElse (add entry.physicalDataOffset entry.compressedSize)
    (.arithmeticOverflow "RHO5 extraction range")
  ensure (¬dataEnd > archive.length) (.archiveChanged entry.archivePath)
  let compressed := Window.window entry.physicalDataOffset entry.compressedSize archive
  -- a fresh key stream for the beginning, then the one for all of the bytes
  let words := library.keyWords entry.key
  pure (WordCipher.decrypt words
    (WordCipher.decrypt words (compressed.take doubleEncryptedPrefix) ++ compressed.drop doubleEncryptedPrefix))

/-- `decompress_and_authenticate`: the loop stops when it holds more than the declared size. -/
def decompressAndAuthenticate (library : Rho5Library) (entry : Rho5Entry) (compressed : List UInt8)
    (maximumTrailingBytes : Nat) : Except Rho5Error (List UInt8) := do
  let inflated ← (library.zlib.inflate compressed (entry.plaintextSize + 1)).mapError (.decompression entry.normalizedPath)
  let plaintext := inflated.1
  let consumed := inflated.2
  ensure (¬plaintext.length > entry.plaintextSize)
    (.decompressedSizeLimitExceeded entry.normalizedPath entry.plaintextSize)
  let trailing ← orElse (sub entry.compressedSize consumed)
    (.arithmeticOverflow "RHO5 trailing compressed length")
  ensure (¬trailing > maximumTrailingBytes)
    (.trailingCompressedData entry.normalizedPath consumed entry.compressedSize)
  ensure (plaintext.length = entry.plaintextSize)
    (.plaintextSizeMismatch entry.normalizedPath plaintext.length entry.plaintextSize)
  ensure (library.md5 plaintext = entry.plaintextMd5) (.plaintextMd5Mismatch entry.normalizedPath)
  pure plaintext

def extractEntryWithTrailingLimit (library : Rho5Library) (files : List Rho5File) (entry : Rho5Entry) (limits : Rho5Limits)
    (maximumTrailingBytes : Nat) : Except Rho5Error (List UInt8) := do
  ensure (¬entry.compressedSize > limits.maxCompressedBytes)
    (.compressedSizeTooLarge entry.archivePath entry.normalizedPath entry.compressedSize limits.maxCompressedBytes)
  ensure (¬entry.plaintextSize > limits.maxPlaintextBytes)
    (.plaintextSizeTooLarge entry.archivePath entry.normalizedPath entry.plaintextSize limits.maxPlaintextBytes)
  let compressed ← readDecryptedCompressed library files entry
  decompressAndAuthenticate library entry compressed maximumTrailingBytes

def extractEntry (library : Rho5Library) (files : List Rho5File) (entry : Rho5Entry) (limits : Rho5Limits) :
    Except Rho5Error (List UInt8) := extractEntryWithTrailingLimit library files entry limits 0

end Rho5

namespace Rho5Directory

open Rho5

def scan (library : Rho5Library) (files : List Rho5File) (region : Rho5Region) (limits : Rho5Limits) :
    Except Rho5Error Rho5Directory := do
  validateLimits limits
  let archives ← collectArchives files limits
  let entries ← indexArchives library region limits [] 0 0 archives
  pure ⟨archives.length, entries, limits⟩

def uniqueEntry (library : Rho5Library) (directory : Rho5Directory) (path : String) : Except Rho5Error Rho5Entry := do
  let normalized ← normalizePath library path directory.limits
  match directory.entries.filter (fun entry => entry.normalizedPath = normalized) with
  | [] => .error (.entryNotFound normalized)
  | [entry] => pure entry
  | _ :: rest => .error (.duplicateEntry normalized (1 + rest.length))

def extractExact (library : Rho5Library) (files : List Rho5File) (directory : Rho5Directory) (path : String) :
    Except Rho5Error (List UInt8) := do
  let entry ← uniqueEntry library directory path
  extractEntry library files entry directory.limits

end Rho5Directory

end P5136
