import P5136.Net

/-!
# Nicknames

Validation of a nickname on every host by the Windows path rules, and the case-insensitive key of an identity. The Unicode
tables are not part of the server: normalization to form C and full case folding are parameters.
-/

namespace P5136

/-- The Unicode functions that nicknames are normalized with. -/
structure Unicode where
  nfc : String → String
  caseFold : String → String

/-- What the server relies on: normalizing twice, or trimming in between, changes nothing more. -/
structure Unicode.Lawful (U : Unicode) (trim : String → String) : Prop where
  nfc_nfc : ∀ s, U.nfc (U.nfc s) = U.nfc s
  trim_nfc_trim : ∀ s, trim (U.nfc (trim s)) = U.nfc (trim s)

/-- The Unicode functions on ASCII text. -/
def Unicode.ascii : Unicode where
  nfc := id
  caseFold := fun s => .ofList (s.toList.map Char.toLower)

/-- `char::is_whitespace`: the characters with the property White_Space. -/
def isWhitespace (c : Char) : Bool :=
  let n := c.toNat
  (9 ≤ n && n ≤ 13) || n == 0x20 || n == 0x85 || n == 0xA0 || n == 0x1680 || (0x2000 ≤ n && n ≤ 0x200A) || n == 0x2028 ||
    n == 0x2029 || n == 0x202F || n == 0x205F || n == 0x3000

/-- `char::is_control`: the characters of the category Cc. -/
def isControl (c : Char) : Bool := c.toNat ≤ 0x1F || (0x7F ≤ c.toNat && c.toNat ≤ 0x9F)

def trim (s : String) : String :=
  .ofList ((s.toList.dropWhile isWhitespace).reverse.dropWhile isWhitespace).reverse

/-- `encode_utf16().count()`: the number of UTF-16 code units. -/
def utf16Length (s : String) : Nat := (s.toList.map (fun c => if c.toNat < 0x10000 then 1 else 2)).sum

def eqIgnoreAsciiCase (s t : String) : Bool := s.toList.map Char.toLower == t.toList.map Char.toLower

/-- `MAXIMUM_NICKNAME_LENGTH`. -/
def maximumNicknameLength : Nat := 32

/-- `RESERVED_WINDOWS_NAMES`. -/
def reservedWindowsNames : List String :=
  ["CON", "PRN", "AUX", "NUL", "COM1", "COM2", "COM3", "COM4", "COM5", "COM6", "COM7", "COM8", "COM9", "LPT1", "LPT2", "LPT3",
    "LPT4", "LPT5", "LPT6", "LPT7", "LPT8", "LPT9"]

inductive NicknameError where
  | empty
  | tooLong (maximum : Nat)
  | unsafePathComponent
  | invalidCharacter (codepoint : Nat)
  | reservedWindowsName (name : String)
deriving DecidableEq

/-- A character that no nickname holds: a control character or punctuation that Windows refuses. -/
def isInvalidNicknameCharacter (c : Char) : Bool :=
  isControl c || ['<', '>', ':', '"', '/', '\\', '|', '?', '*'].contains c

/-- The rules a trimmed and normalized nickname is checked against, in the order they are checked. -/
def validateNickname (nickname : String) : Except NicknameError Unit :=
  if nickname = "" then .error .empty
  else if utf16Length nickname > maximumNicknameLength then .error (.tooLong maximumNicknameLength)
  else if nickname = "." ∨ nickname = ".." ∨ nickname.toList.getLast? = some '.' ∨ nickname.toList.getLast? = some ' ' then
    .error .unsafePathComponent
  else match nickname.toList.find? isInvalidNicknameCharacter with
  | some c => .error (.invalidCharacter c.toNat)
  | none =>
    let baseName := String.ofList (nickname.toList.takeWhile (· ≠ '.'))
    if reservedWindowsNames.any (eqIgnoreAsciiCase baseName) then .error (.reservedWindowsName baseName) else .ok ()

/-- `normalize_nickname`: the trimmed nickname in form C, when it keeps the rules. -/
def normalizeNickname (U : Unicode) (value : String) : Except NicknameError String :=
  let nickname := U.nfc (trim value)
  (validateNickname nickname).map (fun _ => nickname)

/-- `canonical_nickname_key`: the same for nicknames that differ only in case. -/
def canonicalNicknameKey (U : Unicode) (nickname : String) : String := U.nfc (U.caseFold (U.nfc nickname))

/-- A normalized nickname keeps the rules. -/
theorem normalizeNickname_eq_ok {U : Unicode} {value nickname : String} :
    normalizeNickname U value = .ok nickname ↔ nickname = U.nfc (trim value) ∧ validateNickname nickname = .ok () := by
  unfold normalizeNickname
  simp only
  cases h : validateNickname (U.nfc (trim value)) with
  | error e =>
    simp only [Except.map, reduceCtorEq, false_iff]
    rintro ⟨rfl, hv⟩
    rw [h] at hv
    cases hv
  | ok x =>
    simp only [Except.map, Except.ok.injEq]
    constructor
    · rintro rfl
      exact ⟨rfl, h⟩
    · rintro ⟨rfl, -⟩
      rfl

end P5136
