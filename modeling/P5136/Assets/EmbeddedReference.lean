import Mathlib.Data.Prod.Lex
import Mathlib.Data.String.Basic
import P5136.Assets.PlanFidelity
import P5136.Lib.FirstFound
import P5136.Rho5.Paths

/-!
# References in the files of a track

A name in the bytes of a track's file stands for a file of the source. It is tried under nine paths, and when none of them exists
the files with the same base name are ranked by where they are. The paths are sorted before they are looked up.
-/

namespace P5136

namespace Assets

/-- The functions of `std::path::Path` that a reference is read with. What separates components depends on the platform. -/
structure PathFunctions where
  /-- `file_name`. -/
  fileName : String → Option String
  /-- `extension`. -/
  extension : String → Option String

namespace PathFunctions

/-- `file_name` where only slashes separate: the last component that is not the current directory. -/
def posixFileName (path : String) : Option String :=
  match ((path.toList.splitOn '/').filter fun component => component ≠ [] ∧ component ≠ ['.']).getLast? with
  | some component => if component = ['.', '.'] then none else some (.ofList component)
  | none => none

/-- `extension` where only slashes separate: what stands behind the last dot of the file name, if something stands before it. -/
def posixExtension (path : String) : Option String :=
  match (posixFileName path).bind fun name => rsplitOnce '.' name.toList with
  | some (_ :: _, behind) => some (.ofList behind)
  | _ => none

/-- The functions where only slashes separate. -/
def posix : PathFunctions := ⟨posixFileName, posixExtension⟩

end PathFunctions

/-- What a reference is resolved with of a `SelectedTrack`. -/
structure SelectedTrack where
  id : String
  theme : String
deriving DecidableEq

def normalizeVirtualPath (value : String) : Option String := normalizeVirtual value

def isTrackAssetExtension (extension : String) : Bool :=
  ["1s", "dds", "tga", "png", "jpg", "jpeg", "bmh", "bmx", "f30", "hdr", "fft", "wav", "ogg", "flac", "xml", "kml", "bml",
    "uset", "kap"].contains extension

/-! ## The base names of an index -/

/-- The folded base name of a record, and its path, when it has the extension of a track's asset. -/
def referencePath (functions : PathFunctions) (record : AssetRecord) : Option (String × String) :=
  let path := String.ofList (withSlashes record.virtualPath.toList)
  match functions.extension path with
  | none => none
  | some extension =>
    if isTrackAssetExtension (Rho5.toAsciiLowercase extension) then
      (functions.fileName path).map fun name => (foldPath name, path)
    else none

/-- `sort_unstable_by_key(fold_path)` and `dedup_by(eq_ignore_ascii_case)`. Paths that fold to the same are looked up alike. -/
def sortPaths (paths : List String) : List String :=
  (paths.insertionSort fun left right => foldPath left ≤ foldPath right).destutter fun left right =>
    eqIgnoreAsciiCase right left = false

def referencePathIndex (functions : PathFunctions) (index : AssetIndex) : FiniteMap String (List String) :=
  ((index.effectiveRecords.filterMap (referencePath functions)).foldl Multimap.push ∅).mapValues fun _ => sortPaths

/-! ## Resolving a reference -/

def embeddedPathPriority (path : String) (track : SelectedTrack) : Nat :=
  if pathInPrefix path ("track_/" ++ track.id) ∨ pathInPrefix path ("track/" ++ track.id) then 0
  else if pathInPrefix path ("theme/" ++ track.theme) then 1
  else if pathInPrefix path "theme/common" then 2
  else if pathInPrefix path "theme" then 3
  else if pathInPrefix path "sound" then 4
  else 5

/-- The attempts of `resolve_embedded_reference`, as they are listed. -/
def embeddedAttempts (containerPath : String) (track : SelectedTrack) (reference name : String) : List String :=
  let parent := match rsplitOnce '/' containerPath.toList with
    | some (parent, _) => String.ofList parent
    | none => ""
  [normalizeVirtualPath reference,
    normalizeVirtualPath (parent ++ "/" ++ reference),
    normalizeVirtualPath ("track_/" ++ track.id ++ "/" ++ reference),
    normalizeVirtualPath ("track/" ++ track.id ++ "/" ++ reference),
    normalizeVirtualPath ("theme/" ++ track.theme ++ "/" ++ reference),
    normalizeVirtualPath ("theme/" ++ track.theme ++ "/texture/" ++ name),
    normalizeVirtualPath ("theme/common/" ++ reference),
    normalizeVirtualPath ("theme/common/texture/" ++ name),
    normalizeVirtualPath ("sound/fx/surround/" ++ name)].filterMap id

/-- The order of `resolve_embedded_reference` on paths with the same base name. -/
def embeddedRank (track : SelectedTrack) (path : String) : Nat ×ₗ String :=
  toLex (embeddedPathPriority path track, foldPath path)

/-- The end of `resolve_embedded_reference`: the path of the base name that has its priority for itself. -/
def resolveBasename (basenameIndex : FiniteMap String (List String)) (track : SelectedTrack) (name : String) :
    Option String := do
  let paths ← basenameIndex.lookup (foldPath name)
  let basenames := paths.filter fun path => !pathInPrefix path "zeta"
  let basenames := basenames.insertionSort fun left right => embeddedRank track left ≤ embeddedRank track right
  let first ← basenames.head?
  let priority := embeddedPathPriority first track
  if (basenames.filter fun path => embeddedPathPriority path track == priority).length = 1 then some first else none

def resolveEmbeddedReference (functions : PathFunctions) (source : AssetIndex)
    (basenameIndex : FiniteMap String (List String)) (containerPath : String) (track : SelectedTrack) (reference : String) :
    Option String := do
  let name ← functions.fileName reference
  match (sortPaths (embeddedAttempts containerPath track reference name)).findSome? source.effective with
  | some record => some record.virtualPath
  | none => resolveBasename basenameIndex track name

end Assets

end P5136
