import Mathlib.Data.List.Sort
import P5136.Nickname
import P5136.Rho5.Archive

/-!
# Virtual paths and names of assets

Paths inside the client's data are compared without case and with slashes only. An asset group is named by the first two
components of its paths; its manifest by a sanitized form of that prefix.
-/

namespace P5136

namespace Assets

/-- `trim_matches` of one set of characters. -/
def trimMatches (p : Char → Bool) (cs : List Char) : List Char := ((cs.dropWhile p).reverse.dropWhile p).reverse

/-- `replace('\\', "/")`. -/
def withSlashes (cs : List Char) : List Char := cs.map fun c => if c = '\\' then '/' else c

def foldPath (path : String) : String :=
  .ofList ((trimMatches (· == '/') (withSlashes path.toList)).map Char.toLower)

/-- `rsplit_once`: what stands before the last occurrence of a character, and behind it. -/
def rsplitOnce (c : Char) (cs : List Char) : Option (List Char × List Char) :=
  if c ∈ cs then
    let behind := cs.reverse.takeWhile (· != c)
    some ((cs.reverse.drop (behind.length + 1)).reverse, behind.reverse)
  else none

/-- A text stands somewhere in another. -/
def containsText (part whole : List Char) : Bool := whole.tails.any (part.isPrefixOf ·)

/-- `starts_with` and `strip_prefix`. -/
def stripPrefix : List Char → List Char → Option (List Char)
  | [], cs => some cs
  | p :: ps, c :: cs => if p = c then stripPrefix ps cs else none
  | _ :: _, [] => none

/-- The strings of a `BTreeSet`, in its order. -/
def sortedSet (strings : List String) : List String := strings.eraseDups.insertionSort (· ≤ ·)

/-! ## Groups -/

def categoryForRoot (root : String) : Option String :=
  let root := Rho5.toAsciiLowercase root
  if root = "kart_" ∨ root = "kart" then some "kart"
  else if root = "track_" ∨ root = "track" then some "track"
  else if root = "character_" ∨ root = "character" ∨ root = "rider_" ∨ root = "rider" then some "character"
  else if root = "pet" ∨ root = "pet_" then some "pet"
  else if root = "flyingpet" ∨ root = "flyingpet_" then some "flying_pet"
  else none

/-- `group_for_path`: the category, the asset and the prefix of a path with at least three components. -/
def groupForPath (path : String) : Option (String × String × String) :=
  match path.toList.splitOn '/' with
  | root :: asset :: _ :: _ =>
    (categoryForRoot (.ofList root)).map fun category =>
      (category, .ofList asset, .ofList (root ++ '/' :: asset))
  | _ => none

def pathInPrefix (path pathPrefix : String) : Bool :=
  match stripPrefix (foldPath pathPrefix).toList (foldPath path).toList with
  | some [] => true
  | some (c :: _) => c == '/'
  | none => false

def extension (path : String) : String :=
  match rsplitOnce '.' path.toList with
  | some (_, behind) => .ofList (behind.takeWhile fun c => c ≠ '?' ∧ c ≠ '#')
  | none => ""

def isAssetExtension (ext : String) : Bool :=
  ["1s", "dds", "tga", "png", "jpg", "jpeg", "bmh", "bmx", "f30", "hdr", "fft", "wav", "ogg", "flac", "xml", "kml", "bml",
    "uset", "kap"].contains (Rho5.toAsciiLowercase ext)

def hasHan (value : String) : Bool :=
  value.toList.any fun c =>
    let n := c.toNat
    (0x3400 ≤ n && n ≤ 0x4dbf) || (0x4e00 ≤ n && n ≤ 0x9fff) || (0xf900 ≤ n && n ≤ 0xfaff) || (0x20000 ≤ n && n ≤ 0x2fa1f)

def nativeMarker (value : String) : Option String :=
  let lower := (Rho5.toAsciiLowercase value).toList
  ["xun", "kart12", "parts12", "xungen", "generation12"].find? fun marker => containsText marker.toList lower

/-- The components that `normalize_virtual` keeps; none when one of them leaves the root. -/
def normalizeComponents : List (List Char) → List (List Char) → Option (List (List Char))
  | kept, [] => some kept
  | kept, component :: rest =>
    if component = [] ∨ component = ['.'] then normalizeComponents kept rest
    else if component = ['.', '.'] then
      if kept = [] then none else normalizeComponents kept.dropLast rest
    else normalizeComponents (kept ++ [component]) rest

def normalizeVirtual (value : String) : Option String :=
  if ':' ∈ value.toList ∨ value.toList.head? = some '/' ∨ value.toList.head? = some '\\' then none
  else match normalizeComponents [] ((withSlashes value.toList).splitOn '/') with
    | some [] => none
    | some components => some (.ofList (List.intercalate ['/'] components))
    | none => none

/-! ## Names -/

/-- One digit of a hexadecimal number. -/
def hexDigit (n : Nat) : Char := if n < 10 then Char.ofNat (48 + n) else Char.ofNat (87 + n)

def hex (bytes : List UInt8) : String := .ofList (bytes.flatMap fun b => [hexDigit (b.toNat / 16), hexDigit (b.toNat % 16)])

/-- `while output.contains("__") { output.replace("__", "_") }`: each run of underscores becomes one. -/
def collapseUnderscores : List Char → List Char
  | [] => []
  | [c] => [c]
  | c :: d :: rest => if c = '_' ∧ d = '_' then collapseUnderscores (d :: rest) else c :: collapseUnderscores (d :: rest)

/-- `safe_asset_name`, with the digest of the hash library. -/
def safeAssetName (sha256 : List UInt8 → List UInt8) (value : String) : String :=
  let output := value.toList.map fun c => if c.isAlphanum ∨ c = '-' ∨ c = '_' then c.toLower else '_'
  let output := trimMatches (· == '_') (collapseUnderscores output)
  if output = [] then hex ((sha256 value.toUTF8.toList).take 8) else .ofList output

end Assets

end P5136
