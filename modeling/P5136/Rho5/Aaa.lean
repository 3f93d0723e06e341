import P5136.Core.Packet
import P5136.Rho5.LegacyData

/-!
# The pack-folder index

The bounded codec of the `aaa.pk` index: a recursive binary-XML tree, and the document that wraps it, compressed, with a
checksum of the plaintext.
-/

namespace P5136

open Checks Act LittleEndian

/-- The bounds of an index. -/
structure AaaLimits where
  maxFileBytes : Nat
  maxPlaintextBytes : Nat
  maxNodes : Nat
  maxDepth : Nat
  maxAttributesPerNode : Nat
  maxChildrenPerNode : Nat
  maxStringUtf16Units : Nat
deriving DecidableEq

def AaaLimits.default : AaaLimits where
  maxFileBytes := 16 * 1024 * 1024
  maxPlaintextBytes := 64 * 1024 * 1024
  maxNodes := 1000000
  maxDepth := 128
  maxAttributesPerNode := 256
  maxChildrenPerNode := 1000000
  maxStringUtf16Units := 16 * 1024

/-- A binary-XML tree. -/
structure AaaNode where
  name : String
  text : String
  attributes : List (String × String)
  children : List AaaNode

/-- An index. -/
structure AaaDocument where
  root : AaaNode

/-- Why an index cannot be read or written. -/
inductive AaaError where
  | invalidLimit (name : String)
  | fileTooLarge (actual maximum : Nat)
  | payloadLength (declared actual : Nat)
  | truncated (context : String) (needed remaining : Nat)
  | invalidKrDataMagic (magic : UInt8)
  | invalidKrDataMode (mode : UInt8)
  | negativeValue (context : String) (value : Int)
  | plaintextLength (actual expected : Nat)
  | checksum (actual expected : UInt32)
  | trailingCompressedBytes (consumed stored : Nat)
  | decompression (source : String)
  | compression (source : String)
  | plaintextTooLarge (actual maximum : Nat)
  | tooDeep (maximum : Nat)
  | tooManyNodes (maximum : Nat)
  | countTooLarge (kind : String) (actual maximum : Nat)
  | stringTooLong (actual maximum : Nat)
  | invalidUtf16
  | trailingBinaryXml (remaining : Nat)
  | arithmeticOverflow
deriving DecidableEq

/-- A reader: the bytes and the position reached. -/
abbrev AaaReader := Cursor UInt8

namespace AaaReader

def take (length : Nat) (context : String) : Act AaaReader AaaError (List UInt8) :=
  Cursor.takeOr length (fun reader => .truncated context length (reader.bytes.length - reader.offset))

def u8 (context : String) : Act AaaReader AaaError UInt8 := do
  let bytes ← take 1 context
  pure (bytes.getD 0 0)

def u32 (context : String) : Act AaaReader AaaError UInt32 := do
  let bytes ← take 4 context
  pure (toU32 bytes)

def i32 (context : String) : Act AaaReader AaaError Int := do
  let bytes ← take 4 context
  pure (toI32 bytes)

def nonnegativeI32 (context : String) : Act AaaReader AaaError Nat := do
  let value ← i32 context
  ofExcept (orElse (Checked.toSize value) (.negativeValue context value))

end AaaReader

namespace Aaa

/-- `KR_DATA_MAGIC`. -/
def krDataMagic : UInt8 := 0x53

/-- `KR_DATA_COMPRESSED`. -/
def krDataCompressed : UInt8 := 1

/-- `KR_DATA_ENCRYPTED`. -/
def krDataEncrypted : UInt8 := 2

/-- `validate_limits`: no limit is zero. -/
def validateLimits (limits : AaaLimits) : Except AaaError Unit :=
  all (fun (field : String × Nat) => if field.2 = 0 then .error (.invalidLimit field.1) else .ok ())
    [("max_file_bytes", limits.maxFileBytes), ("max_plaintext_bytes", limits.maxPlaintextBytes),
      ("max_nodes", limits.maxNodes), ("max_depth", limits.maxDepth),
      ("max_attributes_per_node", limits.maxAttributesPerNode), ("max_children_per_node", limits.maxChildrenPerNode),
      ("max_string_utf16_units", limits.maxStringUtf16Units)]

def checkCount (kind : String) (actual maximum : Nat) : Except AaaError Unit :=
  if actual > maximum then .error (.countTooLarge kind actual maximum) else .ok ()

end Aaa

namespace AaaReader

def boundedCount (kind : String) (maximum : Nat) : Act AaaReader AaaError Nat := do
  let actual ← nonnegativeI32 kind
  ofExcept (Aaa.checkCount kind actual maximum)
  pure actual

def utf16 (maximum : Nat) : Act AaaReader AaaError String := do
  let length ← nonnegativeI32 "UTF-16 string length"
  require (¬length > maximum) (.stringTooLong length maximum)
  let byteLength ← ofExcept (orElse (Checked.mul length 2) .arithmeticOverflow)
  let bytes ← take byteLength "UTF-16 string"
  ofExcept (orElse ((Utf16.decode (words bytes)).map String.ofList) .invalidUtf16)

end AaaReader

namespace Aaa

/-- How `decode_node` and `encode_node` enter a node: its depth, then the number of nodes with it, which is returned. -/
def enterNode (limits : AaaLimits) (depth nodeCount : Nat) : Except AaaError Nat :=
  if depth > limits.maxDepth then .error (.tooDeep limits.maxDepth)
  else match Checked.add nodeCount 1 with
  | none => .error .arithmeticOverflow
  | some nodeCount => if nodeCount > limits.maxNodes then .error (.tooManyNodes limits.maxNodes) else .ok nodeCount

/-! ## Reading trees -/

/-- The name and the value of an attribute. -/
def readAttribute (limits : AaaLimits) : Act AaaReader AaaError (String × String) := do
  let name ← AaaReader.utf16 limits.maxStringUtf16Units
  let value ← AaaReader.utf16 limits.maxStringUtf16Units
  pure (name, value)

/-- `decode_node`: the node and the number of nodes with it. The recursion has `max_depth + 1` levels; below the last one the
check of the depth fails. -/
def decodeNode (limits : AaaLimits) : (levels depth nodeCount : Nat) → Act AaaReader AaaError (AaaNode × Nat)
  | 0, _, _ => fail (.tooDeep limits.maxDepth)
  | levels + 1, depth, nodeCount => do
    let nodeCount ← ofExcept (enterNode limits depth nodeCount)
    let name ← AaaReader.utf16 limits.maxStringUtf16Units
    let text ← AaaReader.utf16 limits.maxStringUtf16Units
    let attributeCount ← AaaReader.boundedCount "attribute" limits.maxAttributesPerNode
    let attributes ← Format.collect (readAttribute limits) attributeCount
    let childCount ← AaaReader.boundedCount "child" limits.maxChildrenPerNode
    let (children, nodeCount) ← Format.times (decodeNode limits levels (depth + 1)) childCount nodeCount
    pure (⟨name, text, attributes, children⟩, nodeCount)

/-! ## Writing trees -/

def pushI32 (value : Nat) : Act (List UInt8) AaaError PUnit := do
  let value ← ofExcept (orElse (Checked.toI32 value) .arithmeticOverflow)
  modify (· ++ ofI32 value)

def pushUtf16 (value : String) (limits : AaaLimits) : Act (List UInt8) AaaError PUnit := do
  let units := utf16Units value
  require (¬units.length > limits.maxStringUtf16Units) (.stringTooLong units.length limits.maxStringUtf16Units)
  pushI32 units.length
  Format.writeAll (fun unit => modify (· ++ ofU16 unit)) units

/-- The name and the value of an attribute. -/
def pushAttribute (limits : AaaLimits) (pair : String × String) : Act (List UInt8) AaaError PUnit := do
  pushUtf16 pair.1 limits
  pushUtf16 pair.2 limits

/-- A count that is checked and written. -/
def pushCount (kind : String) (count maximum : Nat) : Act (List UInt8) AaaError PUnit := do
  ofExcept (checkCount kind count maximum)
  pushI32 count

mutual

/-- `encode_node`: the number of nodes with this one is returned. -/
def encodeNode (limits : AaaLimits) : (node : AaaNode) → (depth nodeCount : Nat) → Act (List UInt8) AaaError Nat
  | ⟨name, text, attributes, children⟩, depth, nodeCount => do
    let nodeCount ← ofExcept (enterNode limits depth nodeCount)
    pushUtf16 name limits
    pushUtf16 text limits
    pushCount "attribute" attributes.length limits.maxAttributesPerNode
    Format.writeAll (pushAttribute limits) attributes
    pushCount "child" children.length limits.maxChildrenPerNode
    encodeChildren limits children (depth + 1) nodeCount

/-- The loop of `encode_node` over the children. -/
def encodeChildren (limits : AaaLimits) : (children : List AaaNode) → (depth nodeCount : Nat) → Act (List UInt8) AaaError Nat
  | [], _, nodeCount => pure nodeCount
  | child :: children, depth, nodeCount => do
    let nodeCount ← encodeNode limits child depth nodeCount
    encodeChildren limits children depth nodeCount

end

end Aaa

namespace AaaNode

def decodeBinaryXml (bytes : List UInt8) (limits : AaaLimits) : Except AaaError AaaNode := do
  Aaa.validateLimits limits
  ensure (¬bytes.length > limits.maxPlaintextBytes) (.plaintextTooLarge bytes.length limits.maxPlaintextBytes)
  let decoded := Aaa.decodeNode limits (limits.maxDepth + 1) 0 0 ⟨bytes, 0⟩
  let node ← decoded.1
  ensure (decoded.2.remaining.length = 0) (.trailingBinaryXml decoded.2.remaining.length)
  pure node.1

def encodeBinaryXml (node : AaaNode) (limits : AaaLimits) : Except AaaError (List UInt8) := do
  Aaa.validateLimits limits
  let encoded := Aaa.encodeNode limits node 0 0 []
  let _ ← encoded.1
  ensure (¬encoded.2.length > limits.maxPlaintextBytes) (.plaintextTooLarge encoded.2.length limits.maxPlaintextBytes)
  pure encoded.2

end AaaNode

/-! ## Documents -/

namespace Aaa

/-- The parts of KRData: the checksum of the plaintext, the key when it is encrypted, the length of the plaintext when it is
compressed, and what is stored. -/
structure KrData where
  checksum : UInt32
  key : Option UInt32
  expectedPlaintext : Option Nat
  stored : List UInt8

/-- A field that stands in KRData only in some modes. -/
def optionalField {α : Type} (present : Bool) (read : Act AaaReader AaaError α) : Act AaaReader AaaError (Option α) :=
  if present then read >>= fun field => pure (some field) else pure none

/-- The fields of `decode_kr_data`, in order. -/
def readKrData : Act AaaReader AaaError KrData := do
  let magic ← AaaReader.u8 "KRData magic"
  require (magic = krDataMagic) (.invalidKrDataMagic magic)
  let mode ← AaaReader.u8 "KRData mode"
  require (mode &&& ~~~(krDataCompressed ||| krDataEncrypted) = 0) (.invalidKrDataMode mode)
  let checksum ← AaaReader.u32 "KRData checksum"
  let key ← optionalField (mode &&& krDataEncrypted ≠ 0) (AaaReader.u32 "KRData encryption key")
  let expectedPlaintext ← optionalField (mode &&& krDataCompressed ≠ 0)
    (AaaReader.nonnegativeI32 "KRData plaintext length")
  let reader ← get
  let stored ← AaaReader.take reader.remaining.length "KRData body"
  pure ⟨checksum, key, expectedPlaintext, stored⟩

/-- The plaintext of stored bytes: decompressed when a length is expected. -/
def openStored (zlib : Zlib) (stored : List UInt8) (expectedPlaintext : Option Nat) (limits : AaaLimits) :
    Except AaaError (List UInt8) :=
  match expectedPlaintext with
  | some expected => do
    ensure (¬expected > limits.maxPlaintextBytes) (.plaintextTooLarge expected limits.maxPlaintextBytes)
    let inflated ← (zlib.inflate stored (expected + 1)).mapError .decompression
    ensure (inflated.1.length = expected) (.plaintextLength inflated.1.length expected)
    ensure (inflated.2 = stored.length) (.trailingCompressedBytes inflated.2 stored.length)
    pure inflated.1
  | none => do
    ensure (¬stored.length > limits.maxPlaintextBytes) (.plaintextTooLarge stored.length limits.maxPlaintextBytes)
    pure stored

def decodeKrData (zlib : Zlib) (payload : List UInt8) (limits : AaaLimits) : Except AaaError (List UInt8) := do
  let data ← (readKrData ⟨payload, 0⟩).1
  let stored := match data.key with
    | some key => Legacy.decryptData data.stored key
    | none => data.stored
  let plaintext ← openStored zlib stored data.expectedPlaintext limits
  ensure (Legacy.adler32 plaintext = data.checksum) (.checksum (Legacy.adler32 plaintext) data.checksum)
  pure plaintext

/-- The payload of a file: its length, which is that of all the rest, and the rest. -/
def readPayload : Act AaaReader AaaError (List UInt8) := do
  let payloadLength ← AaaReader.nonnegativeI32 "KRData payload length"
  let reader ← get
  require (payloadLength = reader.remaining.length) (.payloadLength payloadLength reader.remaining.length)
  AaaReader.take payloadLength "KRData payload"

end Aaa

namespace AaaDocument

def decode (zlib : Zlib) (bytes : List UInt8) (limits : AaaLimits) : Except AaaError AaaDocument := do
  Aaa.validateLimits limits
  ensure (¬bytes.length > limits.maxFileBytes) (.fileTooLarge bytes.length limits.maxFileBytes)
  let payload ← (Aaa.readPayload ⟨bytes, 0⟩).1
  let plaintext ← Aaa.decodeKrData zlib payload limits
  let root ← AaaNode.decodeBinaryXml plaintext limits
  pure ⟨root⟩

/-- The bytes of a file with this payload, in the compressed and unencrypted mode. -/
def pushFile (payloadLength : Nat) (plaintext compressed : List UInt8) : Act (List UInt8) AaaError PUnit := do
  Aaa.pushI32 payloadLength
  modify (· ++ [Aaa.krDataMagic])
  modify (· ++ [Aaa.krDataCompressed])
  modify (· ++ ofU32 (Legacy.adler32 plaintext))
  Aaa.pushI32 plaintext.length
  modify (· ++ compressed)

def encode (zlib : Zlib) (document : AaaDocument) (limits : AaaLimits) : Except AaaError (List UInt8) := do
  Aaa.validateLimits limits
  let plaintext ← document.root.encodeBinaryXml limits
  let compressed ← (zlib.compress plaintext).mapError .compression
  let payloadLength ← orElse (Checked.add (1 + 1 + 4 + 4) compressed.length) .arithmeticOverflow
  let fileLength ← orElse (Checked.add payloadLength 4) .arithmeticOverflow
  ensure (¬fileLength > limits.maxFileBytes) (.fileTooLarge fileLength limits.maxFileBytes)
  let output := pushFile payloadLength plaintext compressed []
  let _ ← output.1
  pure output.2

end AaaDocument

end P5136
