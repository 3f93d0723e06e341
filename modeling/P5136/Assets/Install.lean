import P5136.Lib.FiniteMap
import P5136.Lib.Transition

/-!
# Installing track bundles

Runs that install verified track bundles into one DataRaw tree with one backup directory. Opening a file, writing some of its
bytes, and looking at a file are one step each, and a run may fail between any two of them. Paths are lists of components from the
root on; there are no symbolic links.
-/

namespace P5136

/-- A path, from the root on. -/
abbrev FilePath := List (List Char)

/-- The regular files there are. -/
abbrev Files := FiniteMap FilePath (List UInt8)

/-- Where the operating system finds a path with `..` in it. -/
def FilePath.resolve (path : FilePath) : FilePath :=
  path.foldl (fun found component => if component = ['.', '.'] then found.dropLast else found ++ [component]) []

namespace TrackBundle

/-- `SOURCE_TRACK_TABLE`. -/
def sourceTrackTable : String := "track/common/track@zz.bml"

/-- `TARGET_TRACK_LOCALE`. -/
def targetTrackLocale : String := "track/common/trackLocale@kr.bml"

/-- `SELECT_TRACK_CONFIGS`. -/
def selectTrackConfigs : List String := ["dialog2/selectTrackEx/config@cn.bml", "dialog2/selectTrackEx/config@tw.bml"]

/-- `SELECT_TRACK_STRING_BAG`. -/
def selectTrackStringBag : String := "dialog2/selectTrackEx/selectTrackEx_stringBag.bml"

/-- `CONTENT_CONFIG`. -/
def contentConfig : String := "zeta_/kr/content/config.xml"

def eqIgnoreAsciiCase (left right : String) : Prop := left.toList.map Char.toLower = right.toList.map Char.toLower

instance (left right : String) : Decidable (eqIgnoreAsciiCase left right) :=
  inferInstanceAs (Decidable (left.toList.map Char.toLower = right.toList.map Char.toLower))

/-- `is_track_bundle_catalog_path`. -/
def IsTrackBundleCatalogPath (path : String) : Prop :=
  eqIgnoreAsciiCase path sourceTrackTable ∨ eqIgnoreAsciiCase path targetTrackLocale ∨
    eqIgnoreAsciiCase path selectTrackStringBag ∨ eqIgnoreAsciiCase path contentConfig ∨
      ∃ candidate ∈ selectTrackConfigs, eqIgnoreAsciiCase path candidate

instance (path : String) : Decidable (IsTrackBundleCatalogPath path) :=
  inferInstanceAs (Decidable (_ ∨ _ ∨ _ ∨ _ ∨ ∃ candidate ∈ selectTrackConfigs, eqIgnoreAsciiCase path candidate))

/-- Why a path of a bundle is refused. -/
inductive RelativePathError where
  | absolute (value : String)
  | unsafeComponent (value : String)
  | empty
deriving DecidableEq

/-- The components that `Path::components` lists of a path split at its separators: a `.` counts only in the first place. -/
def components : List (List Char) → List (List Char)
  | [] => []
  | first :: rest => (if first = [] then [] else [first]) ++ rest.filter (fun c => c ≠ [] ∧ c ≠ ['.'])

def safeRelativePath (value : String) : Except RelativePathError FilePath :=
  let normalized := value.toList.map (fun c => if c = '\\' then '/' else c)
  if normalized.head? = some '/' then .error (.absolute value)
  else
    let output := components (normalized.splitOn '/')
    if ['.'] ∈ output ∨ ['.', '.'] ∈ output then .error (.unsafeComponent value)
    else if output = [] then .error .empty
    else .ok output

end TrackBundle

/-- An archive of a bundle report. -/
structure ArchiveReport where
  name : String
  role : String

/-- An entry of the archives of a bundle, with what extracting it returns. -/
structure TrackBundleEntry where
  archiveName : String
  normalizedPath : String
  extracted : Option (List UInt8)

/-- What a run counts for its report. -/
structure InstallCounts where
  installed : Nat
  identical : Nat
  replaced : Nat
  installedPaths : List String

/-- A staged bundle whose archives have the sizes and the hashes of its report, with the bytes of the report of a run. -/
structure TrackBundle where
  directory : FilePath
  archives : List ArchiveReport
  entries : List TrackBundleEntry
  installReport : InstallCounts → List UInt8

/-- An entry to install, at a safe path. -/
structure InstallEntry where
  path : String
  relative : FilePath
  bytes : List UInt8
  safe : TrackBundle.safeRelativePath path = .ok relative

/-- What a run makes of an entry before it looks at its destination. -/
inductive EntryDecision where
  | skip
  | refused
  | install (entry : InstallEntry)

/-- What a run does next: look at the destination of the next entry, look at its backup, write the backup, open the destination,
write it, read it again, look at the catalogs, and write the report. -/
inductive InstallPhase where
  | inspecting (remaining : List TrackBundleEntry)
  | backingUp (entry : InstallEntry) (remaining : List TrackBundleEntry)
  | copying (entry : InstallEntry) (remaining : List TrackBundleEntry) (original : List UInt8) (written : Nat)
  | opening (entry : InstallEntry) (remaining : List TrackBundleEntry)
  | writing (entry : InstallEntry) (remaining : List TrackBundleEntry) (written : Nat)
  | verifying (entry : InstallEntry) (remaining : List TrackBundleEntry)
  | checking
  | reporting (bytes : List UInt8) (written : Nat)

/-- A run of `install_tracks_dataraw`. -/
structure InstallRun where
  bundle : TrackBundle
  counts : InstallCounts
  phase : InstallPhase

/-- The canonical DataRaw directory and the absolute backup directory. -/
structure InstallTarget where
  dataRaw : FilePath
  backupAbsolute : FilePath

/-- The files, the run there is, and the bundle of the last run when it succeeded. -/
structure InstallSystem where
  files : Files
  run : Option InstallRun
  succeeded : Option TrackBundle

/-- A run begins, takes its next step, writes some bytes of the file it has open, or fails. -/
inductive InstallEvent where
  | begin (bundle : TrackBundle)
  | run
  | write (count : Nat)
  | fail

namespace TrackBundle

/-- The role of an archive in the report. -/
def roleOf (bundle : TrackBundle) (archiveName : String) : Option String :=
  (bundle.archives.reverse.find? (fun archive => archive.name.toList.map Char.toLower = archiveName.toList.map Char.toLower)).map
    ArchiveReport.role

/-- Whether an entry is installed, and where. -/
def select (bundle : TrackBundle) (entry : TrackBundleEntry) : EntryDecision :=
  match bundle.roleOf entry.archiveName with
  | none => .refused
  | some role =>
    if role = "track_catalog" ∧ ¬IsTrackBundleCatalogPath entry.normalizedPath then .skip
    else if ¬(role = "track_catalog" ∨ role = "track_resources") then .refused
    else match h : safeRelativePath entry.normalizedPath, entry.extracted with
      | .ok relative, some bytes => .install ⟨entry.normalizedPath, relative, bytes, h⟩
      | _, _ => .refused

/-- The report of a run in its bundle. -/
def reportPath (bundle : TrackBundle) : FilePath := bundle.directory ++ ["dataraw-install-report.json".toList]

end TrackBundle

namespace InstallTarget

/-- Where an entry is installed. -/
def destination (target : InstallTarget) (relative : FilePath) : FilePath := target.dataRaw ++ relative

/-- Where `backup_once` keeps the file of an entry. -/
def backup (target : InstallTarget) (relative : FilePath) : FilePath := target.backupAbsolute.resolve ++ relative

/-- What `install_tracks_dataraw` checks of its directories before it reads the bundle. -/
def Accepts (target : InstallTarget) (files : Files) (bundle : TrackBundle) : Prop :=
  (∀ path ∈ [TrackBundle.sourceTrackTable, TrackBundle.targetTrackLocale],
    files.lookup (target.destination (path.toList.splitOn '/')) ≠ none) ∧
  bundle.directory ≠ target.dataRaw ∧ ¬target.dataRaw <+: bundle.directory ∧
  target.backupAbsolute ≠ target.dataRaw ∧ ¬target.dataRaw <+: target.backupAbsolute

instance (target : InstallTarget) (files : Files) (bundle : TrackBundle) : Decidable (target.Accepts files bundle) :=
  inferInstanceAs (Decidable (_ ∧ _ ∧ _ ∧ _ ∧ _))

end InstallTarget

namespace InstallSystem

open TrackBundle

/-- A system before the first run. -/
def initial (files : Files) : InstallSystem := ⟨files, none, none⟩

/-- The system whose run goes on with something else. -/
def goto (s : InstallSystem) (run : InstallRun) (phase : InstallPhase) : InstallSystem :=
  { s with run := some { run with phase := phase } }

/-- The system whose run is over. -/
def stop (s : InstallSystem) : InstallSystem := { s with run := none }

/-- The system with a file written. -/
def put (s : InstallSystem) (path : FilePath) (bytes : List UInt8) : InstallSystem := { s with files := s.files.insert path bytes }

/-- Look at the destination of an entry. -/
def inspect (target : InstallTarget) (s : InstallSystem) (run : InstallRun) (entry : InstallEntry)
    (remaining : List TrackBundleEntry) : InstallSystem :=
  match s.files.lookup (target.destination entry.relative) with
  | some existing =>
    if existing = entry.bytes then
      s.goto { run with counts := { run.counts with identical := run.counts.identical + 1 } } (.inspecting remaining)
    else if IsTrackBundleCatalogPath entry.path then s.goto run (.backingUp entry remaining)
    else s.stop
  | none => s.goto run (.opening entry remaining)

/-- `backup_once`, up to the opened backup. -/
def backUp (target : InstallTarget) (s : InstallSystem) (run : InstallRun) (entry : InstallEntry)
    (remaining : List TrackBundleEntry) : InstallSystem :=
  match s.files.lookup (target.backup entry.relative), s.files.lookup (target.destination entry.relative) with
  | some _, _ =>
    s.goto { run with counts := { run.counts with replaced := run.counts.replaced + 1 } } (.opening entry remaining)
  | none, some original => (s.put (target.backup entry.relative) []).goto run (.copying entry remaining original 0)
  | none, none => s.stop

/-- The next step of a run that is not in the middle of a file. -/
def advance (target : InstallTarget) (s : InstallSystem) (run : InstallRun) : Option InstallSystem :=
  match run.phase with
  | .inspecting (entry :: remaining) =>
    match run.bundle.select entry with
    | .skip => some (s.goto run (.inspecting remaining))
    | .refused => some s.stop
    | .install entry => some (s.inspect target run entry remaining)
  | .inspecting [] => some (s.goto run .checking)
  | .backingUp entry remaining => some (s.backUp target run entry remaining)
  | .copying entry remaining original written =>
    if written = original.length then
      some (s.goto { run with counts := { run.counts with replaced := run.counts.replaced + 1 } } (.opening entry remaining))
    else none
  | .opening entry remaining => some ((s.put (target.destination entry.relative) []).goto run (.writing entry remaining 0))
  | .writing entry remaining written =>
    if written = entry.bytes.length then some (s.goto run (.verifying entry remaining)) else none
  | .verifying entry remaining =>
    if s.files.lookup (target.destination entry.relative) = some entry.bytes then
      some (s.goto { run with counts := { run.counts with
        installed := run.counts.installed + 1
        installedPaths := run.counts.installedPaths ++ [entry.path] } } (.inspecting remaining))
    else some s.stop
  | .checking => some ((s.put run.bundle.reportPath []).goto run (.reporting (run.bundle.installReport run.counts) 0))
  | .reporting bytes written => if written = bytes.length then some { s with run := none, succeeded := some run.bundle } else none

/-- Write more of the file that is open. -/
def write (target : InstallTarget) (s : InstallSystem) (run : InstallRun) (count : Nat) : Option InstallSystem :=
  match run.phase with
  | .copying entry remaining original written =>
    if written + count ≤ original.length then
      some ((s.put (target.backup entry.relative) (original.take (written + count))).goto run
        (.copying entry remaining original (written + count)))
    else none
  | .writing entry remaining written =>
    if written + count ≤ entry.bytes.length then
      some ((s.put (target.destination entry.relative) (entry.bytes.take (written + count))).goto run
        (.writing entry remaining (written + count)))
    else none
  | .reporting bytes written =>
    if written + count ≤ bytes.length then
      some ((s.put run.bundle.reportPath (bytes.take (written + count))).goto run (.reporting bytes (written + count)))
    else none
  | _ => none

/-- What an event makes of the system. -/
def next (target : InstallTarget) (s : InstallSystem) : InstallEvent → Option InstallSystem
  | .begin bundle =>
    if s.run.isNone ∧ target.Accepts s.files bundle then
      some ⟨s.files, some ⟨bundle, ⟨0, 0, 0, []⟩, .inspecting bundle.entries⟩, none⟩
    else none
  | .run => s.run.bind (fun run => s.advance target run)
  | .write count => s.run.bind (fun run => s.write target run count)
  | .fail => s.run.map (fun _ => s.stop)

/-- A step of the system. -/
def Step (target : InstallTarget) (s : InstallSystem) (event : InstallEvent) (t : InstallSystem) : Prop :=
  s.next target event = some t

end InstallSystem

end P5136
