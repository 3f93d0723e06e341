import P5136.Connector.FileSafety
import P5136.Connector.Pin

/-!
# Preparing an installation

The connector prepares four files of the game directory for a session: the PIN file, the server configuration, the launcher
profile and the overlay with the special tracks. All are recorded first, then patched; the session file of the sidecar is written
last. Reading the track archives, patching the track locale and encoding the overlay are parameters, and so is the header of a
PIN file that the detection reads.
-/

namespace P5136.Connector

open Interruptible

/-- The files that are prepared. -/
inductive GameFile where
  | pin
  | gameConfig
  | launcherProfile
  | specialTrackOverlay
deriving DecidableEq

/-- A game directory: the prepared files with their siblings, and the session file. -/
structure GameDirectory where
  files : GameFile → ManagedFile
  xunSidecarSession : Option (List UInt8)

/-- A game directory with another state of one file. -/
def GameDirectory.withFile (directory : GameDirectory) (name : GameFile) (file : ManagedFile) : GameDirectory :=
  { directory with files := Function.update directory.files name file }

/-! ## Detection -/

inductive PinDetectionSource where
  | live
  | pristineBackup
  | legacyBackup
deriving DecidableEq

/-- The fields of a PIN header that the detection compares. -/
structure ShallowPinHeader where
  localeId : UInt16
  clientLocation : UInt16
  minorVersion : UInt16
deriving DecidableEq

/-- Why the special tracks are not prepared, apart from their overlay. -/
inductive SpecialTrackPatchError where
  | file (source : ConnectorFileError)
  | tracks (source : String)
deriving DecidableEq

/-- What the connector calls that is not modelled here. -/
structure ConnectorLibrary where
  zlib : Zlib
  /-- `decode_shallow_pin_header_with_limits`. -/
  decodeShallowPinHeader : List UInt8 → CodecLimits → Except PinCodecError ShallowPinHeader
  /-- `load_base_track_locale`, which reads the archives of the directory. -/
  loadBaseTrackLocale : GameDirectory → Except String (List UInt8)
  /-- `patch_korean_track_locale`: the patched locale, and how many tracks were unblocked and restored. -/
  patchKoreanTrackLocale : List UInt8 → Except String (List UInt8 × Nat × Nat)
  /-- The RHO5 archive with the patched locale. -/
  encodeOverlay : List UInt8 → Except String (List UInt8)

/-- `P5136_LOCALE_ID`. -/
def p5136LocaleId : UInt16 := 1002

/-- `P5136_CLIENT_LOCATION`. -/
def p5136ClientLocation : UInt16 := 118

/-- The loop of `detect_p5136` over the candidates that are there. -/
def detectIn (library : ConnectorLibrary) (limits : CodecLimits) :
    List (PinDetectionSource × Option (List UInt8)) → Except ConnectorFileError (Option PinDetectionSource)
  | [] => pure none
  | (_, none) :: rest => detectIn library limits rest
  | (source, some content) :: rest => do
    let bytes ← readBounded (some content) limits.maxPinFileBytes
    match library.decodeShallowPinHeader bytes limits with
    | .error _ => detectIn library limits rest
    | .ok header =>
      if header.localeId = p5136LocaleId ∧ header.clientLocation = p5136ClientLocation ∧
          header.minorVersion = p5136MinorVersion then pure (some source)
      else detectIn library limits rest

def detectP5136 (library : ConnectorLibrary) (directory : GameDirectory) (limits : CodecLimits) :
    Except ConnectorFileError (Option PinDetectionSource) :=
  let pin := directory.files .pin
  detectIn library limits [(.live, pin.live), (.pristineBackup, pin.pristineBackup), (.legacyBackup, pin.legacyBackup)]

/-! ## Contents -/

inductive LauncherProfileRole where
  | regular
  | observerMaster
  | anonymousLeague
deriving DecidableEq

/-- The UTF-8 bytes of a text. -/
def utf8Bytes (text : String) : List UInt8 := text.toUTF8.data.toList

/-- An endpoint as text. -/
def SocketAddrV4.text (endpoint : SocketAddrV4) : String :=
  let (a, b, c, d) := endpoint.octets
  toString a ++ "." ++ toString b ++ "." ++ toString c ++ "." ++ toString d ++ ":" ++ toString endpoint.port

def serverConfigXml (loginEndpoint : SocketAddrV4) (dataPackOff : Bool) : List UInt8 :=
  utf8Bytes ("<?xml version='1.0' encoding='UTF-16'?>\r\n<config>\r\n\t<server addr='" ++ loginEndpoint.text ++ "'/>\r\n" ++
    (if dataPackOff then "\t<datapackOff/>\r\n" else "") ++ "</config>")

def escapeElementText (value : String) : String :=
  String.join (value.toList.map fun character =>
    if character = '&' then "&amp;" else if character = '<' then "&lt;" else if character = '>' then "&gt;"
    else String.ofList [character])

def LauncherProfileRole.pmap : LauncherProfileRole → Nat
  | regular => 0
  | observerMaster => 718
  | anonymousLeague => 1798

def launcherProfileXmlForRole (nickname : String) (role : LauncherProfileRole) : List UInt8 :=
  utf8Bytes ("<?xml version='1.0' encoding='UTF-16'?>\r\n<profile>\r\n<username>" ++ escapeElementText nickname ++
    "</username>\r\n<pmap>" ++ toString role.pmap ++ "</pmap>\r\n</profile>")

def encodeWindowsUnicodeIni (text : String) : List UInt8 :=
  [0xFF, 0xFE] ++ (Utf16.encode text.toList).flatMap LittleEndian.ofU16

/-- The session file of the sidecar. -/
def xunSidecarSession (loginEndpoint : SocketAddrV4) (port : Nat) (nickname : String) : List UInt8 :=
  let (a, b, c, d) := loginEndpoint.octets
  encodeWindowsUnicodeIni ("[session]\r\nprotocol=2\r\nserver=" ++ toString a ++ "." ++ toString b ++ "." ++ toString c ++ "." ++
    toString d ++ "\r\nport=" ++ toString port ++ "\r\nnickname=" ++ nickname ++ "\r\n")

/-! ## The preparation -/

structure SpecialTrackPatchReport where
  enabled : Bool
  overlayPristine : PersistentFilePreparation
  unblockedTracks : Nat
  restoredTransformerTracks : Nat
deriving DecidableEq

structure InstallationOptions where
  removeNgsOn : Bool
  launcherProfileRole : LauncherProfileRole
  unlockSpecialTracks : Bool
  dataPackOff : Bool
  maximumPersistentFileBytes : Nat
  codecLimits : CodecLimits

/-- What an installation is prepared for, and whether its lock is got in time. -/
structure InstallationRequest where
  loginEndpoint : SocketAddrV4
  nickname : String
  options : InstallationOptions
  lockAcquired : Bool

/-- Why an installation is not prepared. -/
inductive InstallationError where
  | unsupportedBuild
  | detection (source : ConnectorFileError)
  | file (source : ConnectorFileError)
  | identity (source : NicknameError)
  | pin (source : PinCodecError)
  | specialTracks (source : SpecialTrackPatchError)
  | xunSidecarPortOverflow (loginPort : UInt16)
deriving DecidableEq

structure PreparedInstallation where
  buildEvidence : PinDetectionSource
  pinPristine : PersistentFilePreparation
  gameConfigPristine : PersistentFilePreparation
  launcherProfilePristine : PersistentFilePreparation
  pinPatch : PinPatchReport
  specialTrackPatch : SpecialTrackPatchReport

/-- A call on one file of a game directory. -/
def onFile {α : Type} (name : GameFile) (call : FileCall α) : Interruptible GameDirectory ConnectorFileError α :=
  within (·.files name) (·.withFile name) call

def prepareSpecialTracks (library : ConnectorLibrary) (enabled : Bool) (maximumBytes : Nat) :
    Interruptible GameDirectory SpecialTrackPatchError SpecialTrackPatchReport := do
  let overlayPristine ← mapError .file (onFile .specialTrackOverlay (preparePersistentFile false maximumBytes))
  if enabled = false then
    mapError .file (onFile .specialTrackOverlay (restorePersistentFile overlayPristine maximumBytes))
    pure ⟨enabled, overlayPristine, 0, 0⟩
  else
    let localeBytes ← reads fun directory => (library.loadBaseTrackLocale directory).mapError .tracks
    let patched ← ofExcept ((library.patchKoreanTrackLocale localeBytes).mapError .tracks)
    let encoded ← ofExcept ((library.encodeOverlay patched.1).mapError .tracks)
    mapError .file (onFile .specialTrackOverlay (atomicWrite encoded))
    pure ⟨enabled, overlayPristine, patched.2.1, patched.2.2⟩

/-- The writes at the end of `prepare_installation`. -/
def writeInstallation (pin gameConfig launcherProfile session : List UInt8) :
    Interruptible GameDirectory InstallationError PUnit := do
  mapError .file (onFile .pin (atomicWrite pin))
  mapError .file (onFile .gameConfig (atomicWrite gameConfig))
  mapError .file (onFile .launcherProfile (atomicWrite launcherProfile))
  atomically fun directory => { directory with xunSidecarSession := some session }

def prepareInstallation (library : ConnectorLibrary) (request : InstallationRequest) :
    Interruptible GameDirectory InstallationError PreparedInstallation := do
  let options := request.options
  let nickname := trim request.nickname
  ofExcept ((validateNickname nickname).mapError .identity)
  require request.lockAcquired (.file .lockTimeout)
  let evidence ← reads fun directory => (detectP5136 library directory options.codecLimits).mapError .detection
  let buildEvidence ← ofExcept (Checks.orElse evidence .unsupportedBuild)
  let pinPristine ← mapError .file (onFile .pin (preparePersistentFile true options.codecLimits.maxPinFileBytes))
  let gameConfigPristine ←
    mapError .file (onFile .gameConfig (preparePersistentFile false options.maximumPersistentFileBytes))
  let launcherProfilePristine ←
    mapError .file (onFile .launcherProfile (preparePersistentFile false options.maximumPersistentFileBytes))
  let pinInput ← reads fun directory =>
    (readBounded (directory.files .pin).live options.codecLimits.maxPinFileBytes).mapError .file
  let patchedPin ← ofExcept ((patchP5136PinWithLimits library.zlib pinInput request.loginEndpoint
    ⟨options.removeNgsOn, true⟩ options.codecLimits).mapError .pin)
  let xunSidecarPort := request.loginEndpoint.port.toNat + 2
  require (xunSidecarPort < 2 ^ 16) (.xunSidecarPortOverflow request.loginEndpoint.port)
  let specialTrackPatch ←
    mapError .specialTracks (prepareSpecialTracks library options.unlockSpecialTracks options.maximumPersistentFileBytes)
  writeInstallation patchedPin.1 (serverConfigXml request.loginEndpoint options.dataPackOff)
    (launcherProfileXmlForRole nickname options.launcherProfileRole)
    (xunSidecarSession request.loginEndpoint xunSidecarPort nickname)
  pure ⟨buildEvidence, pinPristine, gameConfigPristine, launcherProfilePristine, patchedPin.2, specialTrackPatch⟩

end P5136.Connector
