import P5136.Lib.Checks
import P5136.Lib.FiniteMap
import P5136.Nickname

/-!
# The account store

The launcher accounts of the profile root: registration, lookup and authentication. The table is guarded by a mutex that a
registration takes three times: to look for duplicates, to insert its record, and to write the file. Between them other calls
run. The Unicode tables and the message digest are parameters.
-/

namespace P5136

open Checks

/-- What the accounts take from other libraries. -/
structure AccountLibrary where
  unicode : Unicode
  nfkc : String → String
  toLowercase : String → String
  /-- The bytes of the SHA-256 digest. -/
  sha256 : List UInt8 → List UInt8

/-- An account. -/
structure AccountRecord where
  username : String
  nickname : String
  passwordSalt : String
  passwordHash : String
  createdUnixSeconds : Int
deriving DecidableEq

/-- What the accounts file holds. -/
structure AccountsFile where
  accounts : List AccountRecord
deriving DecidableEq

def AccountsFile.default : AccountsFile := ⟨[]⟩

/-- Why a call fails. An invalid nickname is reported with the text of its error. -/
inductive AccountError where
  | io (error : String)
  | json (error : String)
  | usernameTaken
  | nicknameTaken
  | nicknameInvalid (reason : NicknameError)
  | usernameInvalid (reason : String)
  | passwordTooShort
  | registrationDisabled
  | invalidCredentials
deriving DecidableEq

/-- `MIN_PASSWORD_LENGTH`. -/
def minPasswordLength : Nat := 6

namespace Accounts

variable (library : AccountLibrary)

def unicodeCasefold (input : String) : String := library.toLowercase (library.nfkc input)

def canonicalUsernameKey (input : String) : String := unicodeCasefold library input

def canonicalNicknameKey (input : String) : String := P5136.canonicalNicknameKey library.unicode input

def validateUsername (input : String) : Except AccountError String := do
  let trimmed := trim input
  ensure (¬(trimmed = "" ∨ trimmed.toList.length > 32)) (.usernameInvalid "the account name must be 1-32 characters")
  ensure (¬trimmed.toList.any (fun c => isWhitespace c || isControl c) = true)
    (.usernameInvalid "the account name cannot contain whitespace")
  pure trimmed

def validateNickname (input : String) : Except AccountError String :=
  (normalizeNickname library.unicode input).mapError .nicknameInvalid

/-! ## Passwords -/

/-- A digit of `HEX`. -/
def hexDigit (n : Nat) : Char := Char.ofNat (if n < 10 then 48 + n else 87 + n)

def hexEncode (bytes : List UInt8) : String :=
  String.ofList (bytes.flatMap (fun byte => [hexDigit (byte.toNat / 16), hexDigit (byte.toNat % 16)]))

/-- The bytes of a text. -/
def asBytes (s : String) : List UInt8 := s.toList.flatMap String.utf8EncodeChar

def digest (password salt : String) : String := hexEncode (library.sha256 (asBytes salt ++ 0 :: asBytes password))

/-- `hash_password`, from the random bytes of the salt: the salt and the digest. -/
def hashPassword (password : String) (random : Vector UInt8 16) : String × String :=
  (hexEncode random.toList, digest library password (hexEncode random.toList))

/-- The loop of `constant_time_eq` over the pairs of bytes. -/
def difference : (acc : UInt8) → List (UInt8 × UInt8) → UInt8
  | acc, [] => acc
  | acc, (a, b) :: rest => difference (acc ||| (a ^^^ b)) rest

def constantTimeEq (left right : List UInt8) : Bool :=
  if left.length ≠ right.length then false else difference 0 (left.zip right) = 0

def verifyPassword (password salt expectedHash : String) : Bool :=
  constantTimeEq (asBytes (digest library password salt)) (asBytes expectedHash)

/-! ## Calls -/

/-- The loop of `register` over the accounts. -/
def checkUnused (username nickname : String) : List AccountRecord → Except AccountError Unit
  | [] => .ok ()
  | account :: accounts =>
    if canonicalUsernameKey library account.username = username then .error .usernameTaken
    else if canonicalNicknameKey library account.nickname = nickname then .error .nicknameTaken
    else checkUnused username nickname accounts

/-- `register` up to the end of its first critical section: the names, when they may be used. -/
def checkRegistration (accounts : List AccountRecord) (username password nickname : String) (registrationEnabled : Bool) :
    Except AccountError (String × String) := do
  ensure (registrationEnabled = true) .registrationDisabled
  let username ← validateUsername username
  let nickname ← validateNickname library nickname
  ensure (¬password.toList.length < minPasswordLength) .passwordTooShort
  checkUnused library (canonicalUsernameKey library username) (canonicalNicknameKey library nickname) accounts
  pure (username, nickname)

/-- The record that `register` inserts. -/
def newRecord (username nickname password : String) (random : Vector UInt8 16) (createdUnixSeconds : Int) : AccountRecord where
  username := username
  nickname := nickname
  passwordSalt := (hashPassword library password random).1
  passwordHash := (hashPassword library password random).2
  createdUnixSeconds := createdUnixSeconds

def findByUsername (accounts : List AccountRecord) (username : String) : Option AccountRecord :=
  accounts.find? (fun account => canonicalUsernameKey library account.username = canonicalUsernameKey library username)

def authenticate (accounts : List AccountRecord) (username password : String) : Except AccountError AccountRecord := do
  let account ← orElse (findByUsername library accounts username) .invalidCredentials
  ensure (verifyPassword library password account.passwordSalt account.passwordHash = true) .invalidCredentials
  pure account

/-- An account that authenticates is one of the table. -/
theorem mem_of_authenticate {accounts : List AccountRecord} {username password : String} {account : AccountRecord}
    (h : authenticate library accounts username password = .ok account) : account ∈ accounts := by
  unfold authenticate at h
  simp only [bind_eq_ok, orElse_eq_ok] at h
  obtain ⟨found, hfound, _, -, h⟩ := h
  cases h
  exact List.mem_of_find?_eq_some hfound

end Accounts

end P5136
