import P5136.Connector.Bml
import P5136.Connector.EncodedBlock

/-!
# PIN files

The file that tells the client where to log in: a length and an encoded block, whose plaintext is a header, the authentication
methods with their login servers, and two optional trees. Bytes behind the trees and behind the block are kept. A patch replaces
the login servers of every method.
-/

namespace P5136.Connector

open WireReader WireWriter

/-- `P5136_PIN_MAGIC`. -/
def p5136PinMagic : UInt32 := 0x10EF037E

/-- `P5136_MINOR_VERSION`. -/
def p5136MinorVersion : UInt16 := 5136

/-- `P5136_STORAGE_ROOT`. -/
def p5136StorageRoot : String := "카트라이더_5136"

/-- `P5136_SCREENSHOT_DIRECTORY`. -/
def p5136ScreenshotDirectory : String := "스크린샷"

/-- `P5136_RIDER_DATA_DIRECTORY`. -/
def p5136RiderDataDirectory : String := "라이더데이터"

/-- `SocketAddrV4`: the octets of the address, and the port. -/
structure SocketAddrV4 where
  octets : UInt8 × UInt8 × UInt8 × UInt8
  port : UInt16
deriving DecidableEq

/-- The header of a payload. -/
structure PinHeader where
  objectVersion : UInt8
  localeId : UInt16
  clientLocation : UInt16
  localeType : UInt8
  unknown3 : UInt8
  minorVersion : UInt16
  unknown4 : UInt8
  unknown5 : UInt8
  loginType : UInt8
  aesKey : String
  url : String
  patchUrl : String
deriving DecidableEq

/-- An authentication method. -/
structure AuthMethod where
  index : UInt8
  name : String
  accountConfig : Option BmlObject
  loginServers : List SocketAddrV4
  extraConfig : Option BmlObject

/-- A PIN file. -/
structure PinDocument where
  header : PinHeader
  authMethods : List AuthMethod
  storageConfig : Option BmlObject
  extraConfig : Option BmlObject
  encoding : BlockEncoding
  trailingPayload : List UInt8
  trailingEnvelope : List UInt8

/-- What a patch does beyond the endpoint. -/
structure PinPatchOptions where
  removeNgsOn : Bool
  overrideStorage : Bool
deriving DecidableEq

/-- What a patch did. -/
structure PinPatchReport where
  authenticationMethods : Nat
  removedNgsOnEntries : Nat
  storageOverridden : Bool
deriving DecidableEq

/-! ## Reading -/

namespace Pin

/-- An endpoint as `read_endpoints` reads it. -/
def readEndpoint : Act WireReader PinCodecError SocketAddrV4 := do
  let a ← readU8
  let b ← readU8
  let c ← readU8
  let d ← readU8
  let port ← readU16
  pure ⟨(a, b, c, d), port⟩

def readEndpoints (count : Nat) : Act WireReader PinCodecError (List SocketAddrV4) := Format.collect readEndpoint count

/-- The fields of the header that every version has. -/
def readHeader : Act WireReader PinCodecError PinHeader := do
  let magic ← readU32
  Act.require (magic = p5136PinMagic) (.invalidPinMagic p5136PinMagic magic)
  let objectVersion ← readU8
  let localeId ← readU16
  let clientLocation ← readU16
  let localeType ← readU8
  let unknown3 ← readU8
  let minorVersion ← readU16
  let unknown4 ← readU8
  let unknown5 ← readU8
  pure ⟨objectVersion, localeId, clientLocation, localeType, unknown3, minorVersion, unknown4, unknown5, 0, "", "", ""⟩

/-- An authentication method, and the nodes entered with its trees. -/
def readAuthMethod (limits : CodecLimits) (nodes : Nat) : Act WireReader PinCodecError (AuthMethod × Nat) := do
  let index ← readU8
  let name ← readString limits
  let accountConfig ← readOptionalBml limits nodes
  let endpointCount ← readCount "login server count" limits.maxCollectionItems
  let loginServers ← readEndpoints endpointCount
  let extraConfig ← readOptionalBml limits accountConfig.2
  pure (⟨index, name, accountConfig.1, loginServers, extraConfig.1⟩, extraConfig.2)

/-- A top-level slot: absent when nothing is left of the payload. -/
def readSlot (limits : CodecLimits) (nodes : Nat) : Act WireReader PinCodecError (Option BmlObject × Nat) := do
  let payload ← Act.get
  if payload.remaining.isEmpty then pure (none, nodes) else readOptionalBml limits nodes

/-- The parts of a payload before its trailing bytes. -/
structure Payload where
  header : PinHeader
  authMethods : List AuthMethod
  storageConfig : Option BmlObject
  extraConfig : Option BmlObject

/-- The rest of a payload of version 1. -/
def readLegacy (limits : CodecLimits) (header : PinHeader) : Act WireReader PinCodecError Payload := do
  let url ← readString limits
  let endpointCount ← readCount "legacy login server count" limits.maxCollectionItems
  let loginServers ← readEndpoints endpointCount
  pure ⟨{ header with loginType := 2, url }, [⟨1, "Default", none, loginServers, none⟩], none, none⟩

/-- The rest of a payload of a later version. -/
def readCurrent (limits : CodecLimits) (header : PinHeader) : Act WireReader PinCodecError Payload := do
  let loginType ← readU8
  let aesKey ← readString limits
  let url ← readString limits
  let patchUrl ← readString limits
  let authCount ← readCount "authentication method count" limits.maxCollectionItems
  let authMethods ← Format.times (readAuthMethod limits) authCount 0
  let storageConfig ← readSlot limits authMethods.2
  let extraConfig ← readSlot limits storageConfig.2
  pure ⟨{ header with loginType, aesKey, url, patchUrl }, authMethods.1, storageConfig.1, extraConfig.1⟩

/-- The parts of a payload. -/
def readPayload (limits : CodecLimits) : Act WireReader PinCodecError Payload := do
  let header ← readHeader
  if header.objectVersion = 1 then readLegacy limits header else readCurrent limits header

/-- The encoded block of a file. -/
def readEnvelope (limits : CodecLimits) : Act WireReader PinCodecError (List UInt8) := do
  let encodedLength ← readCount "encoded block" limits.maxEncodedBlockBytes
  take encodedLength

end Pin

namespace PinDocument

def decodeWithLimits (zlib : Zlib) (input : List UInt8) (limits : CodecLimits) : Except PinCodecError PinDocument := do
  enforceLimit "PIN file" input.length limits.maxPinFileBytes
  let envelope := Pin.readEnvelope limits ⟨input, 0⟩
  let encoded ← envelope.1
  let decoded ← (EncodedBlock.decode zlib encoded limits).mapError .encodedBlock
  let read := Pin.readPayload limits ⟨decoded.bytes, 0⟩
  let payload ← read.1
  pure ⟨payload.header, payload.authMethods, payload.storageConfig, payload.extraConfig, decoded.encoding,
    read.2.remaining, envelope.2.remaining⟩

end PinDocument

/-! ## Writing -/

namespace Pin

def writeEndpoint (maximum : Nat) (endpoint : SocketAddrV4) : Act WireWriter PinCodecError PUnit := do
  let octets := endpoint.octets
  writeBytes maximum [octets.1, octets.2.1, octets.2.2.1, octets.2.2.2]
  writeU16 maximum endpoint.port

/-- The fields of the header that every version has. -/
def writeHeader (maximum : Nat) (header : PinHeader) : Act WireWriter PinCodecError PUnit := do
  writeU32 maximum p5136PinMagic
  writeU8 maximum header.objectVersion
  writeU16 maximum header.localeId
  writeU16 maximum header.clientLocation
  writeU8 maximum header.localeType
  writeU8 maximum header.unknown3
  writeU16 maximum header.minorVersion
  writeU8 maximum header.unknown4
  writeU8 maximum header.unknown5

/-- An authentication method, behind trees with so many nodes. -/
def writeAuthMethod (maximum : Nat) (limits : CodecLimits) (method : AuthMethod) (nodes : Nat) :
    Act WireWriter PinCodecError Nat := do
  writeU8 maximum method.index
  writeString maximum method.name limits
  let nodes ← writeOptionalBml maximum limits method.accountConfig nodes
  writeCount maximum method.loginServers.length "login server count" limits.maxCollectionItems
  Format.writeAll (writeEndpoint maximum) method.loginServers
  writeOptionalBml maximum limits method.extraConfig nodes

/-- The number of the login servers of all methods, when it is a size. -/
def endpointCount (authMethods : List AuthMethod) : Option Nat :=
  authMethods.foldlM (fun total auth => Checked.add total auth.loginServers.length) 0

/-- The rest of a payload of version 1. -/
def writeLegacy (maximum : Nat) (limits : CodecLimits) (document : PinDocument) : Act WireWriter PinCodecError PUnit := do
  writeString maximum document.header.url limits
  let count ← Act.ofExcept (Checks.orElse (endpointCount document.authMethods) (.lengthOverflow "legacy login server count"))
  writeCount maximum count "legacy login server count" limits.maxCollectionItems
  Format.writeAll (writeEndpoint maximum) (document.authMethods.flatMap (·.loginServers))

/-- The rest of a payload of a later version. -/
def writeCurrent (maximum : Nat) (limits : CodecLimits) (document : PinDocument) : Act WireWriter PinCodecError PUnit := do
  writeU8 maximum document.header.loginType
  writeString maximum document.header.aesKey limits
  writeString maximum document.header.url limits
  writeString maximum document.header.patchUrl limits
  writeCount maximum document.authMethods.length "authentication method count" limits.maxCollectionItems
  let nodes ← Format.writeFrom (writeAuthMethod maximum limits) document.authMethods 0
  let nodes ← writeOptionalBml maximum limits document.storageConfig nodes
  let _ ← writeOptionalBml maximum limits document.extraConfig nodes

/-- The parts of a payload before its trailing bytes. -/
def writePayload (maximum : Nat) (limits : CodecLimits) (document : PinDocument) : Act WireWriter PinCodecError PUnit := do
  writeHeader maximum document.header
  if document.header.objectVersion = 1 then writeLegacy maximum limits document else writeCurrent maximum limits document

/-- The parts of a file around its encoded block. -/
def writeEnvelope (maximum : Nat) (encodedLength : Int) (encoded trailingEnvelope : List UInt8) :
    Act WireWriter PinCodecError PUnit := do
  writeI32 maximum encodedLength
  writeBytes maximum encoded
  writeBytes maximum trailingEnvelope

end Pin

namespace PinDocument

def encodePayload (document : PinDocument) (limits : CodecLimits) : Except PinCodecError (List UInt8) := do
  let maximum := limits.maxDecodedBlockBytes
  let payload := (do
    Pin.writePayload maximum limits document
    writeBytes maximum document.trailingPayload : Act WireWriter PinCodecError PUnit) []
  let _ ← payload.1
  pure payload.2

def encodeWithLimits (zlib : Zlib) (document : PinDocument) (limits : CodecLimits) : Except PinCodecError (List UInt8) := do
  let payload ← document.encodePayload limits
  let encoded ← (EncodedBlock.encode zlib payload document.encoding limits).mapError .encodedBlock
  let encodedLength ← Checks.orElse (Checked.toI32 encoded.length) (.lengthOverflow "encoded block")
  let totalLength ← Checks.orElse ((Checked.add 4 encoded.length).bind (Checked.add · document.trailingEnvelope.length))
    (.lengthOverflow "PIN file")
  enforceLimit "PIN file" totalLength limits.maxPinFileBytes
  let envelope := Pin.writeEnvelope limits.maxPinFileBytes encodedLength encoded document.trailingEnvelope []
  let _ ← envelope.1
  pure envelope.2

end PinDocument

/-! ## Patching -/

def p5136StorageConfig : BmlObject :=
  ⟨"storage", "", [], [⟨"document", "", [("root", p5136StorageRoot), ("screenShot", p5136ScreenshotDirectory),
    ("riderData", p5136RiderDataDirectory)], []⟩]⟩

namespace PinDocument

/-- The `NgsOn` entries taken out of one slot, and how many they were. -/
def removeNgsOn : Option BmlObject → Option BmlObject × Nat
  | some config =>
    if eqIgnoreAsciiCase config.name "extra" then
      let removed := removeDirectChildrenNamed config "NgsOn"
      (some removed.1, removed.2)
    else (some config, 0)
  | none => (none, 0)

def patchP5136Endpoint (document : PinDocument) (endpoint : SocketAddrV4) (options : PinPatchOptions) :
    Except PinCodecError (PinDocument × PinPatchReport) := do
  Checks.ensure (document.header.minorVersion = p5136MinorVersion)
    (.wrongProtocol p5136MinorVersion document.header.minorVersion)
  Checks.ensure (¬document.authMethods.isEmpty) .missingAuthenticationMethods
  let authMethods := document.authMethods.map ({ · with loginServers := [endpoint] })
  let storageConfig := if options.overrideStorage then some p5136StorageConfig else document.storageConfig
  let storage := if options.removeNgsOn then removeNgsOn storageConfig else (storageConfig, 0)
  let extra := if options.removeNgsOn then removeNgsOn document.extraConfig else (document.extraConfig, 0)
  pure ({ document with authMethods, storageConfig := storage.1, extraConfig := extra.1 },
    ⟨authMethods.length, storage.2 + extra.2, options.overrideStorage⟩)

end PinDocument

/-- `patch_p5136_pin_with_limits`: the patched file is decoded again before it is returned. -/
def patchP5136PinWithLimits (zlib : Zlib) (input : List UInt8) (endpoint : SocketAddrV4) (options : PinPatchOptions)
    (limits : CodecLimits) : Except PinCodecError (List UInt8 × PinPatchReport) := do
  let pin ← PinDocument.decodeWithLimits zlib input limits
  let patched ← pin.patchP5136Endpoint endpoint options
  let output ← patched.1.encodeWithLimits zlib limits
  let verified ← PinDocument.decodeWithLimits zlib output limits
  Checks.ensure (¬(verified.header.minorVersion ≠ p5136MinorVersion ∨
    verified.authMethods.length ≠ patched.2.authenticationMethods ∨
      ∃ auth ∈ verified.authMethods, auth.loginServers ≠ [endpoint])) .endpointVerificationFailed
  Checks.ensure (¬(patched.2.storageOverridden = true ∧ verified.storageConfig ≠ some p5136StorageConfig))
    .storageVerificationFailed
  pure (output, patched.2)

end P5136.Connector
