import P5136.Connector.Wire
import P5136.Rho5.LegacyData

/-!
# Encoded blocks

The block around a PIN payload: a checksum of the plaintext, and by two flags a cipher and a compression. A block that does not
begin with its magic byte is the plaintext itself.
-/

namespace P5136.Connector

open LittleEndian Checks

/-- `FLAG_ZLIB`. -/
def flagZlib : UInt8 := 0x01

/-- `FLAG_KART_CRYPTO`. -/
def flagKartCrypto : UInt8 := 0x02

/-- `DEFAULT_KART_CRYPTO_KEY`. -/
def defaultKartCryptoKey : UInt32 := 0x33699633

/-- `ENCODED_MAGIC`. -/
def encodedMagic : UInt8 := 0x53

/-- How a block is encoded. -/
structure BlockEncoding where
  flags : UInt8
  kartCryptoKey : Option UInt32
deriving DecidableEq

def BlockEncoding.default : BlockEncoding := ⟨flagZlib ||| flagKartCrypto, some defaultKartCryptoKey⟩

/-- A decoded block: its plaintext and how it was encoded. -/
structure DecodedBlock where
  bytes : List UInt8
  encoding : BlockEncoding
deriving DecidableEq

namespace EncodedBlock

def enforceLimit (kind : String) (actual maximum : Nat) : Except EncodedBlockError Unit :=
  ensure (¬actual > maximum) (.limitExceeded kind actual maximum)

/-- `take` of the reader of blocks. -/
def take (length : Nat) : Act WireReader EncodedBlockError (List UInt8) :=
  Cursor.takeOr length (fun reader => .truncated reader.offset length)

def readU8 : Act WireReader EncodedBlockError UInt8 := do
  let bytes ← take 1
  pure (bytes.headD 0)

def readU32 : Act WireReader EncodedBlockError UInt32 := do
  let bytes ← take 4
  pure (toU32 bytes)

/-- `apply_kart_crypto`: the cipher of the legacy archives. -/
def applyKartCrypto (bytes : List UInt8) (key : UInt32) : List UInt8 := Legacy.decryptData bytes key

/-- A body under a key, when there is one. -/
def cipher (key : Option UInt32) (bytes : List UInt8) : List UInt8 :=
  match key with
  | some key => applyKartCrypto bytes key
  | none => bytes

/-- The declared length of a compressed plaintext. -/
def readDeclaredLength (limits : CodecLimits) : Act WireReader EncodedBlockError Nat := do
  let length ← readU32
  let _ ← Act.ofExcept (enforceLimit "declared decoded block" length.toNat limits.maxDecodedBlockBytes)
  pure length.toNat

/-- The fields before the body of a block. -/
structure Header where
  flags : UInt8
  expectedChecksum : UInt32
  kartCryptoKey : Option UInt32
  declaredLength : Option Nat
deriving DecidableEq

/-- A field that stands in a block only with its flag. -/
def flagged {α : Type} (flag : Prop) [Decidable flag] (read : Act WireReader EncodedBlockError α) :
    Act WireReader EncodedBlockError (Option α) :=
  if flag then read >>= fun field => pure (some field) else pure none

/-- The fields that `decode` reads before the body. -/
def readHeader (limits : CodecLimits) : Act WireReader EncodedBlockError Header := do
  let _ ← readU8
  let flags ← readU8
  let expectedChecksum ← readU32
  let kartCryptoKey ← flagged (flags &&& flagKartCrypto ≠ 0) readU32
  let declaredLength ← flagged (flags &&& flagZlib ≠ 0) (readDeclaredLength limits)
  pure ⟨flags, expectedChecksum, kartCryptoKey, declaredLength⟩

/-- The number of bytes `decode_zlib_bounded` is ready to read: one more than the limit, as far as 64 bits go. -/
def readLimit (limits : CodecLimits) : Nat := min (limits.maxDecodedBlockBytes + 1) (2 ^ 64 - 1)

def decodeZlibBounded (zlib : Zlib) (body : List UInt8) (expectedLength : Nat) (limits : CodecLimits) :
    Except EncodedBlockError (List UInt8) := do
  let output ← (zlib.inflate body (readLimit limits)).mapError .zlib
  enforceLimit "decoded zlib block" output.1.length limits.maxDecodedBlockBytes
  ensure (output.1.length = expectedLength) (.decodedLengthMismatch expectedLength output.1.length)
  pure output.1

/-- The plaintext of a body, decompressed when a length is declared. -/
def openBody (zlib : Zlib) (body : List UInt8) (declaredLength : Option Nat) (limits : CodecLimits) :
    Except EncodedBlockError (List UInt8) :=
  match declaredLength with
  | some expectedLength => decodeZlibBounded zlib body expectedLength limits
  | none => do
    enforceLimit "decoded block" body.length limits.maxDecodedBlockBytes
    pure body

def decode (zlib : Zlib) (input : List UInt8) (limits : CodecLimits) : Except EncodedBlockError DecodedBlock := do
  enforceLimit "encoded block" input.length limits.maxEncodedBlockBytes
  if input.head? ≠ some encodedMagic then do
    enforceLimit "decoded block" input.length limits.maxDecodedBlockBytes
    pure ⟨input, .default⟩
  else do
    let read := readHeader limits ⟨input, 0⟩
    let header ← read.1
    let body := cipher header.kartCryptoKey read.2.remaining
    let decoded ← openBody zlib body header.declaredLength limits
    let actualChecksum := Legacy.adler32 decoded
    ensure (actualChecksum = header.expectedChecksum) (.checksumMismatch header.expectedChecksum actualChecksum)
    pure ⟨decoded, ⟨header.flags, header.kartCryptoKey⟩⟩

/-- The body of a block before the cipher: compressed by its flag. -/
def storeBody (zlib : Zlib) (flags : UInt8) (input : List UInt8) : Except EncodedBlockError (List UInt8) :=
  if flags &&& flagZlib ≠ 0 then (zlib.compress input).mapError .zlib else .ok input

/-- The length that a compressed block declares. -/
def declareLength (flags : UInt8) (input : List UInt8) : Except EncodedBlockError (Option Nat) :=
  if flags &&& flagZlib ≠ 0 then
    if input.length < 2 ^ 32 then .ok (some input.length) else .error .lengthOverflow
  else .ok none

def encode (zlib : Zlib) (input : List UInt8) (encoding : BlockEncoding) (limits : CodecLimits) :
    Except EncodedBlockError (List UInt8) := do
  enforceLimit "decoded block" input.length limits.maxDecodedBlockBytes
  let checksum := Legacy.adler32 input
  let stored ← storeBody zlib encoding.flags input
  let key := if encoding.flags &&& flagKartCrypto ≠ 0 then some (encoding.kartCryptoKey.getD checksum) else none
  let body := cipher key stored
  let headerLength := 6 + (if key.isSome then 1 else 0) * 4 + (if encoding.flags &&& flagZlib ≠ 0 then 1 else 0) * 4
  let totalLength ← orElse (Checked.add headerLength body.length) .lengthOverflow
  enforceLimit "encoded block" totalLength limits.maxEncodedBlockBytes
  let length ← declareLength encoding.flags input
  pure ([encodedMagic, encoding.flags] ++ ofU32 checksum ++
    (key.map ofU32).getD [] ++ (length.map (bytes 4)).getD [] ++ body)

/-! ## Decoding what was encoded -/

/-- The encoding that is read back from a block: the key is there exactly with its flag. -/
def WellKeyed (encoding : BlockEncoding) : Prop :=
  encoding.flags &&& flagKartCrypto ≠ 0 ↔ encoding.kartCryptoKey.isSome

instance (encoding : BlockEncoding) : Decidable (WellKeyed encoding) := inferInstanceAs (Decidable (_ ↔ _))

@[simp] theorem enforceLimit_eq_ok {kind : String} {actual maximum : Nat} {x : Unit} :
    enforceLimit kind actual maximum = .ok x ↔ actual ≤ maximum := by
  rw [enforceLimit, ensure_eq_ok, Nat.not_lt]

/-- The cipher undoes itself. -/
theorem cipher_cipher (key : Option UInt32) (bytes : List UInt8) : cipher key (cipher key bytes) = bytes := by
  cases key with
  | none => rfl
  | some key => exact Legacy.decryptData_decryptData bytes key

theorem wellKeyed_default : WellKeyed .default := by decide

/-- A block that is decoded has its key exactly with the flag. -/
theorem wellKeyed_of_decode {zlib : Zlib} {input : List UInt8} {limits : CodecLimits} {block : DecodedBlock}
    (h : decode zlib input limits = .ok block) : WellKeyed block.encoding := by
  unfold decode at h
  obtain ⟨x, -, h⟩ := bind_eq_ok.1 h
  split at h
  · obtain ⟨y, -, h⟩ := bind_eq_ok.1 h
    cases h
    exact wellKeyed_default
  · obtain ⟨header, hheader, h⟩ := bind_eq_ok.1 h
    obtain ⟨decoded, -, h⟩ := bind_eq_ok.1 h
    obtain ⟨y, -, h⟩ := bind_eq_ok.1 h
    cases h
    have hreturns : Act.Returns (readHeader limits) (fun header => WellKeyed ⟨header.flags, header.kartCryptoKey⟩) := by
      refine (Act.returns_any _).bind fun _ _ => (Act.returns_any _).bind fun flags _ => (Act.returns_any _).bind fun _ _ => ?_
      have hkey : Act.Returns (flagged (flags &&& flagKartCrypto ≠ 0) readU32)
          (fun key => flags &&& flagKartCrypto ≠ 0 ↔ key.isSome) := by
        unfold flagged
        split
        · rename_i hflag
          exact (Act.returns_any _).bind fun key _ => Act.returns_pure (by simpa using hflag)
        · rename_i hflag
          exact Act.returns_pure (by simpa using hflag)
      exact hkey.bind fun key hk => (Act.returns_any _).bind fun _ _ => Act.returns_pure hk
    exact hreturns _ _ _ (Prod.ext hheader rfl)

/-- A block that is decoded is within the limit. -/
theorem length_le_of_decode {zlib : Zlib} {input : List UInt8} {limits : CodecLimits} {block : DecodedBlock}
    (h : decode zlib input limits = .ok block) : input.length ≤ limits.maxEncodedBlockBytes := by
  unfold decode at h
  obtain ⟨x, hx, -⟩ := bind_eq_ok.1 h
  exact enforceLimit_eq_ok.1 hx

namespace BlockAux

/-- A field is taken exactly with its flag. -/
theorem takes_flagged {α : Type} {flag : Prop} [Decidable flag] {read : Act WireReader EncodedBlockError α}
    {field : Option α} {spell : α → List UInt8} (hflag : flag ↔ field.isSome)
    (hread : ∀ a ∈ field, Takes Cursor.Presents read (spell a) a) :
    Takes Cursor.Presents (flagged flag read) ((field.map spell).getD []) field := by
  unfold flagged
  cases field with
  | none =>
    rw [if_neg (by simpa using hflag)]
    exact Takes.pure none
  | some a =>
    rw [if_pos (by simpa using hflag)]
    exact (hread a rfl).map

theorem takes_take (bytes : List UInt8) : Takes Cursor.Presents (take bytes.length) bytes bytes :=
  Cursor.takes_of_reads (Format.reads_takeOr _ _) ⟨rfl, rfl⟩

theorem takes_readU8 (value : UInt8) : Takes Cursor.Presents readU8 [value] value := (takes_take [value]).map

theorem takes_readU32 (value : UInt32) : Takes Cursor.Presents readU32 (ofU32 value) value := by
  have h := (takes_take (ofU32 value)).map (f := toU32)
  rwa [toU32_ofU32] at h

/-- The declared length is taken from its bytes, when it is within the limit. -/
theorem takes_readDeclaredLength {limits : CodecLimits} {length : Nat} (hle : length ≤ limits.maxDecodedBlockBytes)
    (hlt : length < 2 ^ 32) :
    Takes Cursor.Presents (readDeclaredLength limits) (bytes 4 length) length := by
  have hn : (UInt32.ofNat length).toNat = length := by
    rw [UInt32.toNat_ofNat']
    exact Nat.mod_eq_of_lt hlt
  have h := takes_readU32 (UInt32.ofNat length)
  rw [ofU32, hn] at h
  have hcheck : enforceLimit "declared decoded block" (UInt32.ofNat length).toNat limits.maxDecodedBlockBytes = .ok () := by
    rw [enforceLimit_eq_ok, hn]
    exact hle
  unfold readDeclaredLength
  refine h.bind_end (Takes.bind_nil (Takes.ofExcept hcheck) ?_)
  rw [hn]
  exact Takes.pure length

/-- The bytes before the body. -/
def spellHeader (header : Header) : List UInt8 :=
  [encodedMagic] ++ ([header.flags] ++ (ofU32 header.expectedChecksum ++
    ((header.kartCryptoKey.map ofU32).getD [] ++ (header.declaredLength.map (bytes 4)).getD [])))

/-- The fields before the body are read back, each exactly with its flag. -/
theorem takes_readHeader {limits : CodecLimits} {header : Header}
    (hkey : header.flags &&& flagKartCrypto ≠ 0 ↔ header.kartCryptoKey.isSome)
    (hzlib : header.flags &&& flagZlib ≠ 0 ↔ header.declaredLength.isSome)
    (hlength : ∀ length ∈ header.declaredLength, length ≤ limits.maxDecodedBlockBytes ∧ length < 2 ^ 32) :
    Takes Cursor.Presents (readHeader limits) (spellHeader header) header := by
  refine (takes_readU8 encodedMagic).bind ((takes_readU8 header.flags).bind ((takes_readU32 header.expectedChecksum).bind
    ((takes_flagged hkey fun key _ => takes_readU32 key).bind
      (Takes.bind_end (takes_flagged hzlib fun length hmem =>
        takes_readDeclaredLength (hlength length hmem).1 (hlength length hmem).2) (Takes.pure _)))))

/-- The plaintext of a stored body. -/
theorem decodeZlibBounded_eq {zlib : Zlib} (hz : zlib.Inverts) {input stored : List UInt8} {limits : CodecLimits}
    (hstored : zlib.compress input = .ok stored) (hle : input.length ≤ limits.maxDecodedBlockBytes)
    (hlt : input.length < 2 ^ 32) : decodeZlibBounded zlib stored input.length limits = .ok input := by
  have hinflate := hz input stored (readLimit limits) hstored (by unfold readLimit; omega)
  unfold decodeZlibBounded
  simp only [bind_eq_ok, ensure_eq_ok, enforceLimit_eq_ok, hinflate, mapError_ok]
  exact ⟨_, rfl, (), hle, (), rfl, rfl⟩

/-- What a body is stored as, is opened again: the length that is declared stands there exactly with its flag. -/
theorem openBody_storeBody {zlib : Zlib} (hz : zlib.Inverts) {flags : UInt8} {input stored : List UInt8}
    {length : Option Nat} {limits : CodecLimits} (hle : input.length ≤ limits.maxDecodedBlockBytes)
    (hstored : storeBody zlib flags input = .ok stored) (hlength : declareLength flags input = .ok length) :
    (flags &&& flagZlib ≠ 0 ↔ length.isSome) ∧
      (∀ n ∈ length, n ≤ limits.maxDecodedBlockBytes ∧ n < 2 ^ 32) ∧ openBody zlib stored length limits = .ok input := by
  unfold storeBody at hstored
  unfold declareLength at hlength
  by_cases hflag : flags &&& flagZlib ≠ 0
  · rw [if_pos hflag] at hstored hlength
    have hcompress : zlib.compress input = .ok stored := by
      cases hc : zlib.compress input with
      | error e => simp [hc, mapError_error] at hstored
      | ok stream => simpa [hc, mapError_ok] using hstored
    split at hlength
    · rename_i hlt
      cases hlength
      refine ⟨by simpa using hflag, ?_, decodeZlibBounded_eq hz hcompress hle hlt⟩
      rintro n ⟨⟩
      exact ⟨hle, hlt⟩
    · cases hlength
  · rw [if_neg hflag] at hstored hlength
    cases hstored
    cases hlength
    refine ⟨by simpa using hflag, by simp, ?_⟩
    unfold openBody
    simp only [bind_eq_ok, enforceLimit_eq_ok]
    exact ⟨(), hle, rfl⟩

end BlockAux

/-- A block that was encoded decodes to the same plaintext and the same encoding, when decompression undoes compression. -/
theorem decode_encode {zlib : Zlib} (hz : zlib.Inverts) {input block : List UInt8} {encoding : BlockEncoding}
    {limits : CodecLimits} (hkey : WellKeyed encoding) (h : encode zlib input encoding limits = .ok block) :
    decode zlib block limits = .ok ⟨input, encoding⟩ := by
  obtain ⟨flags, kartCryptoKey⟩ := encoding
  unfold WellKeyed at hkey
  simp only at hkey
  unfold encode at h
  obtain ⟨x, hinput, h⟩ := bind_eq_ok.1 h
  obtain ⟨stored, hstored, h⟩ := bind_eq_ok.1 h
  obtain ⟨total, htotal, h⟩ := bind_eq_ok.1 h
  obtain ⟨y, hmax, h⟩ := bind_eq_ok.1 h
  obtain ⟨length, hlength, h⟩ := bind_eq_ok.1 h
  -- with the flag the key is the one of the encoding
  have hkeyEq : (if flags &&& flagKartCrypto ≠ 0 then some (kartCryptoKey.getD (Legacy.adler32 input)) else none) =
      kartCryptoKey := by
    cases kartCryptoKey with
    | none => rw [if_neg (by simpa using hkey)]
    | some key =>
      rw [if_pos (by simpa using hkey)]
      rfl
  simp only [hkeyEq] at htotal h
  rw [enforceLimit_eq_ok] at hinput hmax
  rw [orElse_eq_ok, Checked.add_eq_some] at htotal
  obtain ⟨hzlib, hdeclared, hopen⟩ := BlockAux.openBody_storeBody hz hinput hstored hlength
  have hblock : block = BlockAux.spellHeader ⟨flags, Legacy.adler32 input, kartCryptoKey, length⟩ ++
      cipher kartCryptoKey stored := by
    cases h
    simp [BlockAux.spellHeader]
  have hlen : block.length = total := by
    have hz4 : ((length.map (bytes 4)).getD []).length =
        (if flags &&& flagZlib ≠ 0 then 1 else 0) * 4 := by
      cases length with
      | none => rw [if_neg (by simpa using hzlib)]; rfl
      | some n => rw [if_pos (by simpa using hzlib)]; simp
    have hk4 : ((kartCryptoKey.map ofU32).getD []).length = (if kartCryptoKey.isSome then 1 else 0) * 4 := by
      cases kartCryptoKey <;> simp
    rw [hblock, ← htotal.1]
    simp only [BlockAux.spellHeader, List.length_append, hz4, hk4, List.length_singleton, length_ofU32]
    omega
  obtain ⟨t, hread, before, rfl⟩ := BlockAux.takes_readHeader hkey hzlib hdeclared (.between [] block)
    (cipher kartCryptoKey stored) ⟨[], by rw [hblock]⟩
  have hread' : readHeader limits ⟨block, 0⟩ =
      (.ok ⟨flags, Legacy.adler32 input, kartCryptoKey, length⟩, .between before (cipher kartCryptoKey stored)) := hread
  have hmagic : ¬block.head? ≠ some encodedMagic := by
    rw [hblock]
    simp [BlockAux.spellHeader]
  unfold decode
  rw [if_neg hmagic, hread']
  have hplain : openBody zlib (cipher kartCryptoKey (cipher kartCryptoKey stored)) length limits = .ok input := by
    rwa [cipher_cipher]
  simp only [bind_eq_ok, enforceLimit_eq_ok, Cursor.remaining_between, ensure_eq_ok]
  exact ⟨(), by omega, _, rfl, input, hplain, (), rfl, rfl⟩

end EncodedBlock

end P5136.Connector
