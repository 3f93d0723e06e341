import P5136.Lib.Window
import P5136.Lib.WordCipher
import P5136.Rho5.Archive

/-!
# Writing RHO5 archives

The encoder: it normalises and compresses the entries, sorts them by path, lays out the file table and the data, and writes the
encrypted header, the encrypted table and the encrypted data into an archive of zeros.
-/

namespace P5136

open Checks LittleEndian

/-- What is written at a path. -/
structure Rho5WriteEntry where
  path : String
  data : List UInt8
  flags : Int32
deriving DecidableEq

/-- A writer: the entries that were added. -/
structure Rho5Writer where
  entries : List Rho5WriteEntry

/-- A written archive. -/
structure Rho5Encoded where
  bytes : List UInt8
  entries : Nat
deriving DecidableEq

/-- Why an archive cannot be written. -/
inductive Rho5WriteError where
  | read (error : Rho5Error)
  | emptyArchive
  | invalidArchiveName (name : String)
  | archiveNameTooLong (actual maximum : Nat)
  | tooManyEntries (actual maximum : Nat)
  | duplicatePath (path : String)
  | plaintextTooLarge (path : String) (actual maximum : Nat)
  | compressedTooLarge (path : String) (actual maximum : Nat)
  | tableTooLarge (actual maximum : Nat)
  | archiveTooLarge (actual maximum : Nat)
  | compression (source : String)
  | arithmeticOverflow
  | unsupportedFlags (path : String) (actual expected : Int32)
deriving DecidableEq

/-- An entry on its way into the archive. -/
structure PreparedEntry where
  path : String
  pathUnits : Nat
  plaintextSize : Nat
  plaintextMd5 : Vector UInt8 16
  flags : Int32
  compressed : List UInt8
  blockOffset : Nat
  physicalOffset : Nat
deriving DecidableEq

namespace Rho5

/-- `METADATA_BYTES`. -/
def metadataBytes : Nat := 36

/-- A name is the last component of itself as a path, on Unix. -/
def IsFileName (name : String) : Prop := name ≠ "" ∧ '/' ∉ name.toList ∧ name ≠ "." ∧ name ≠ ".."

instance : DecidablePred IsFileName := fun name =>
  inferInstanceAs (Decidable (name ≠ "" ∧ '/' ∉ name.toList ∧ name ≠ "." ∧ name ≠ ".."))

def validateArchiveName (name : String) (limits : Rho5Limits) : Except Rho5WriteError Unit := do
  ensure (IsFileName name ∧ isAscii name = true ∧ ".rho5".toList.isSuffixOf (toAsciiLowercase name).toList = true)
    (.invalidArchiveName name)
  ensure (¬name.utf8ByteSize > limits.maxArchiveNameBytes)
    (.archiveNameTooLong name.utf8ByteSize limits.maxArchiveNameBytes)

/-! ## Preparing entries -/

/-- An entry normalised and compressed; it may not repeat a path that was seen, in whatever case. -/
def prepareEntry (library : Rho5Library) (limits : Rho5Limits) (seen : List String) (entry : Rho5WriteEntry) :
    Except Rho5WriteError PreparedEntry := do
  let path ← (normalizePath library entry.path limits).mapError .read
  ensure (entry.flags = packedEntryFlags) (.unsupportedFlags path entry.flags packedEntryFlags)
  let units := (pathUnits path).length
  ensure (toAsciiLowercase path ∉ seen) (.duplicatePath path)
  ensure (¬entry.data.length > limits.maxPlaintextBytes)
    (.plaintextTooLarge path entry.data.length limits.maxPlaintextBytes)
  let compressed ← (library.zlib.compress entry.data).mapError .compression
  ensure (¬compressed.length > limits.maxCompressedBytes)
    (.compressedTooLarge path compressed.length limits.maxCompressedBytes)
  pure { path := path, pathUnits := units, plaintextSize := entry.data.length, plaintextMd5 := library.md5 entry.data,
         flags := entry.flags, compressed := compressed, blockOffset := 0, physicalOffset := 0 }

/-- The loop over the entries. -/
def prepareEntries (library : Rho5Library) (limits : Rho5Limits) :
    (seen : List String) → List Rho5WriteEntry → Except Rho5WriteError (List PreparedEntry)
  | _, [] => pure []
  | seen, entry :: entries => do
    let prepared ← prepareEntry library limits seen entry
    let rest ← prepareEntries library limits (toAsciiLowercase prepared.path :: seen) entries
    pure (prepared :: rest)

/-- The order of the table: by the path in lower case, then by the path. -/
def tableOrder (left right : PreparedEntry) : Bool :=
  ((compare (toAsciiLowercase left.path) (toAsciiLowercase right.path)).then (compare left.path right.path)).isLE

/-! ## The layout -/

/-- The size of the table, from a size before on. -/
def tableSize : (total : Nat) → List PreparedEntry → Option Nat
  | total, [] => some total
  | total, entry :: entries =>
    (Checked.mul entry.pathUnits 2).bind fun pathBytes =>
    (Checked.add total 4).bind fun value =>
    (Checked.add value pathBytes).bind fun value =>
    (Checked.add value metadataBytes).bind fun value => tableSize value entries

/-- The entries with their offsets, and the end of their data. -/
def placeEntries (dataBase : Nat) :
    (cursor : Nat) → List PreparedEntry → Except Rho5WriteError (List PreparedEntry × Nat)
  | cursor, [] => pure ([], cursor)
  | cursor, entry :: entries => do
    let aligned ← (alignUp cursor dataAlignment).mapError .read
    let relative ← orElse (Checked.sub aligned dataBase) .arithmeticOverflow
    let stop ← orElse (Checked.add aligned entry.compressed.length) .arithmeticOverflow
    let rest ← placeEntries dataBase stop entries
    pure ({ entry with physicalOffset := aligned, blockOffset := relative / dataAlignment } :: rest.1, rest.2)

/-! ## Writing -/

def encryptStream (words : Nat → UInt32) (bytes : List UInt8) : List UInt8 :=
  WordCipher.encrypt words (WordCipher.pad bytes)

def copyAt (output : List UInt8) (offset : Nat) (bytes : List UInt8) : Except Rho5WriteError (List UInt8) :=
  orElse (Window.patch offset bytes output) .arithmeticOverflow

/-- The plain header. -/
def headerBytes (fileCount : Int32) : List UInt8 :=
  ofInt32 (version.toUInt32.toInt32 + fileCount) ++ ([version] ++ ofInt32 fileCount)

/-- The plain table bytes of an entry. -/
def tableEntryBytes (entry : PreparedEntry) : Except Rho5WriteError (List UInt8) := do
  let units ← orElse (Checked.toInt32 (pathUnits entry.path).length) .arithmeticOverflow
  let blockOffset ← orElse (Checked.toInt32 entry.blockOffset) .arithmeticOverflow
  let plaintextSize ← orElse (Checked.toInt32 entry.plaintextSize) .arithmeticOverflow
  let compressedSize ← orElse (Checked.toInt32 entry.compressed.length) .arithmeticOverflow
  let checksum := entryChecksum entry.flags blockOffset plaintextSize compressedSize entry.plaintextMd5
  pure (ofInt32 units ++ ((pathUnits entry.path).flatMap ofU16 ++
    (ofInt32 checksum ++ (ofInt32 entry.flags ++ (ofInt32 blockOffset ++
    (ofInt32 plaintextSize ++ (ofInt32 compressedSize ++ entry.plaintextMd5.toList)))))))

/-- The encrypted data of an entry: all of it, and its beginning once more. -/
def encryptEntry (library : Rho5Library) (region : Rho5Region) (entry : PreparedEntry) : List UInt8 :=
  let words := library.keyWords (library.packedFileKey entry.plaintextMd5 entry.path region.mixingString)
  let encrypted := WordCipher.encrypt words entry.compressed
  WordCipher.encrypt words (encrypted.take doubleEncryptedPrefix) ++ encrypted.drop doubleEncryptedPrefix

/-- The loop that writes the data. -/
def writeData (library : Rho5Library) (region : Rho5Region) :
    (output : List UInt8) → List PreparedEntry → Except Rho5WriteError (List UInt8)
  | output, [] => pure output
  | output, entry :: entries => do
    let output ← copyAt output entry.physicalOffset (encryptEntry library region entry)
    writeData library region output entries

end Rho5

namespace Rho5Writer

open Rho5

def encode (library : Rho5Library) (writer : Rho5Writer) (archiveName : String) (region : Rho5Region) (limits : Rho5Limits) :
    Except Rho5WriteError Rho5Encoded := do
  (validateLimits limits).mapError .read
  validateArchiveName archiveName limits
  ensure (writer.entries ≠ []) .emptyArchive
  ensure (¬writer.entries.length > limits.maxFilesPerArchive)
    (.tooManyEntries writer.entries.length limits.maxFilesPerArchive)
  let collected ← prepareEntries library limits [] writer.entries
  let prepared := collected.mergeSort tableOrder
  let offsets ← (archiveOffsets archiveName).mapError .read
  let size ← orElse (tableSize 0 prepared) .arithmeticOverflow
  ensure (¬size > limits.maxTableBytes) (.tableTooLarge size limits.maxTableBytes)
  let tableEnd ← orElse (Checked.add offsets.table size) .arithmeticOverflow
  let dataBase ← (alignUp tableEnd dataAlignment).mapError .read
  let placed ← placeEntries dataBase dataBase prepared
  ensure (¬placed.2 > limits.maxArchiveBytes) (.archiveTooLarge placed.2 limits.maxArchiveBytes)
  let output := List.replicate placed.2 0
  let fileCount ← orElse (Checked.toInt32 placed.1.length) .arithmeticOverflow
  let header := encryptStream (library.keyWords (library.headerKey archiveName region.mixingString)) (headerBytes fileCount)
  let output ← copyAt output offsets.header header
  let rows ← Checks.traverse tableEntryBytes placed.1
  let table := encryptStream (library.keyWords (library.tableKey archiveName region.mixingString)) rows.flatten
  let output ← copyAt output offsets.table table
  let output ← writeData library region output placed.1
  pure ⟨output, placed.1.length⟩

end Rho5Writer

end P5136
