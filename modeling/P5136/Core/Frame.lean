import Mathlib.Tactic.IntervalCases
import P5136.Core.Crypto
import P5136.Lib.Act
import P5136.Lib.Checks

/-!
# TCP frames

A plain frame is the length of its payload and the payload. An encrypted frame has its header masked by the rolling IV, the
transformed payload, and the masked checksum of the plaintext; each frame that is sent or accepted moves the IV on.
-/

namespace P5136

open LittleEndian Act List Crypto

/-- Why a frame cannot be made or taken apart. -/
inductive FrameError where
  | payloadTooLarge (length maximum : Nat)
  | payloadLengthOverflow
  | truncated (expected actual : Nat)
  | invalidEncryptedLength (declared : Nat)
  | lengthMismatch (expected actual : Nat)
  | checksumMismatch
deriving DecidableEq

namespace Frame

/-- `HEADER_XOR`. -/
def headerXor : UInt32 := 4164199944

/-- `CHECKSUM_XOR`. -/
def checksumXor : UInt32 := 3388492432

/-- `IV_INCREMENT`. -/
def ivIncrement : UInt32 := 21446425

/-- `advance_iv`: the next IV, which is never zero. -/
@[irreducible] def advanceIv (iv : UInt32) : UInt32 :=
  let next := iv + ivIncrement
  if next = 0 then 1 else next

def validatePayloadLength (length maximum : Nat) : Except FrameError Unit :=
  if length > maximum then .error (.payloadTooLarge length maximum) else .ok ()

/-- `u32::try_from` of a size. -/
def lengthWord (length : Nat) : Except FrameError UInt32 :=
  if length < 2 ^ 32 then .ok (UInt32.ofNat length) else .error .payloadLengthOverflow

/-- `checked_add` on words. -/
def checkedAddWord (a b : UInt32) : Except FrameError UInt32 :=
  if a.toNat + b.toNat < 2 ^ 32 then .ok (a + b) else .error .payloadLengthOverflow

/-- `encrypted_body_length`: the number of bytes behind the header, with the checksum. -/
def encryptedBodyLength (encodedHeader iv : UInt32) (maximum : Nat) : Except FrameError Nat := do
  let declared := iv ^^^ encodedHeader ^^^ headerXor
  Checks.ensure (¬declared.toNat < 4) (.invalidEncryptedLength declared.toNat)
  validatePayloadLength (declared.toNat - 4) maximum
  pure declared.toNat

/-- `encode_encrypted`: on the IV of the sender. -/
def encodeEncrypted (payload : List UInt8) (maximum : Nat) : Act UInt32 FrameError (List UInt8) := do
  ofExcept (validatePayloadLength payload.length maximum)
  let payloadLength ← ofExcept (lengthWord payload.length)
  let declared ← ofExcept (checkedAddWord payloadLength 4)
  let activeIv ← get
  let encodedHeader := activeIv ^^^ declared ^^^ headerXor
  let encrypted := encryptInPlace payload activeIv
  let encodedChecksum := activeIv ^^^ encrypted.2 ^^^ checksumXor
  modify (fun _ => advanceIv activeIv)
  pure (ofU32 encodedHeader ++ encrypted.1 ++ ofU32 encodedChecksum)

/-- `decode_encrypted`: on the IV of the receiver, which moves on once the checksum has matched. -/
def decodeEncrypted (frame : List UInt8) (maximum : Nat) : Act UInt32 FrameError (List UInt8) := do
  require (¬frame.length < 4) (.truncated 4 frame.length)
  let activeIv ← get
  let encodedHeader := toU32 (frame.take 4)
  let bodyLength ← ofExcept (encryptedBodyLength encodedHeader activeIv maximum)
  let expected := bodyLength + 4
  require (frame.length = expected) (.lengthMismatch expected frame.length)
  let payloadEnd := frame.length - 4
  let payload := (frame.take payloadEnd).drop 4
  let encodedChecksum := toU32 (frame.drop payloadEnd)
  let decrypted := decryptInPlace payload activeIv
  let expectedChecksum := activeIv ^^^ encodedChecksum ^^^ checksumXor
  require (decrypted.2 = expectedChecksum) .checksumMismatch
  modify (fun _ => advanceIv activeIv)
  pure decrypted.1

/-- Frames for payloads, one after another. -/
def encodeStream (maximum : Nat) : List (List UInt8) → Act UInt32 FrameError (List (List UInt8))
  | [] => pure []
  | payload :: payloads => do
    let frame ← encodeEncrypted payload maximum
    let frames ← encodeStream maximum payloads
    pure (frame :: frames)

/-- Payloads of frames, one after another. -/
def decodeStream (maximum : Nat) : List (List UInt8) → Act UInt32 FrameError (List (List UInt8))
  | [] => pure []
  | frame :: frames => do
    let payload ← decodeEncrypted frame maximum
    let payloads ← decodeStream maximum frames
    pure (payload :: payloads)

/-- The frame with one bit flipped: bit `i % 8` of byte `i / 8`. -/
def flipBit (frame : List UInt8) (i : Nat) : List UInt8 :=
  frame.set (i / 8) (frame.getD (i / 8) 0 ^^^ (1 <<< UInt8.ofNat (i % 8)))

/-! ## One frame -/

/-- A length is within the maximum. -/
@[simp] theorem validatePayloadLength_eq_ok {length maximum : Nat} {x : Unit} :
    validatePayloadLength length maximum = .ok x ↔ length ≤ maximum := by
  unfold validatePayloadLength
  split
  · simp
    omega
  · simp
    omega

namespace FrameAux

/-- The word of a payload's length and the checksum's is the sum, when it is a word. -/
theorem declared_eq_ok {length : Nat} {w v : UInt32} :
    lengthWord length = .ok w ∧ checkedAddWord w 4 = .ok v ↔
      length + 4 < 2 ^ 32 ∧ w = UInt32.ofNat length ∧ v = UInt32.ofNat (length + 4) := by
  have h4 : (4 : UInt32).toNat = 4 := rfl
  unfold lengthWord checkedAddWord
  by_cases hl : length < 2 ^ 32
  · have hw : (UInt32.ofNat length).toNat = length := by
      rw [UInt32.toNat_ofNat']
      exact Nat.mod_eq_of_lt hl
    have hsum : UInt32.ofNat length + 4 = UInt32.ofNat (length + 4) := by rw [UInt32.ofNat_add]; rfl
    simp only [if_pos hl, Except.ok.injEq]
    constructor
    · rintro ⟨rfl, h⟩
      rw [hw, h4] at h
      split at h
      · rename_i hlt
        cases h
        exact ⟨hlt, rfl, hsum⟩
      · cases h
    · rintro ⟨hlt, rfl, rfl⟩
      rw [hw, h4, if_pos hlt, hsum]
      exact ⟨rfl, rfl⟩
  · simp only [if_neg hl]
    constructor
    · rintro ⟨h, -⟩
      cases h
    · rintro ⟨h, -⟩
      omega

/-- The frame of a payload under an IV. -/
def frameOf (payload : List UInt8) (iv : UInt32) : List UInt8 :=
  ofU32 (iv ^^^ UInt32.ofNat (payload.length + 4) ^^^ headerXor) ++ (encryptInPlace payload iv).1 ++
    ofU32 (iv ^^^ (encryptInPlace payload iv).2 ^^^ checksumXor)

/-- A frame is eight bytes longer than its payload. -/
theorem length_frameOf (payload : List UInt8) (iv : UInt32) : (frameOf payload iv).length = payload.length + 8 := by
  simp only [frameOf, length_append, length_ofU32, length_encryptInPlace]
  omega

/-- The mask comes off the word it was put on. -/
theorem unmask (iv w mask : UInt32) : iv ^^^ (iv ^^^ w ^^^ mask) ^^^ mask = w := by
  rw [UInt32.xor_assoc iv w mask, ← UInt32.xor_assoc iv iv, UInt32.xor_self, UInt32.zero_xor, xor_xor_self]

/-- Unmasking is injective. -/
theorem unmask_inj (iv mask : UInt32) {a b : UInt32} (h : iv ^^^ a ^^^ mask = iv ^^^ b ^^^ mask) : a = b :=
  xor_left_inj (xor_right_inj h)

end FrameAux

/-- A payload is encoded exactly when it is within the maximum and its length with the checksum fits the header. -/
theorem encodeEncrypted_eq_ok {payload frame : List UInt8} {maximum : Nat} {iv iv' : UInt32} :
    encodeEncrypted payload maximum iv = (.ok frame, iv') ↔
      payload.length ≤ maximum ∧ payload.length + 4 < 2 ^ 32 ∧ frame = FrameAux.frameOf payload iv ∧ iv' = advanceIv iv := by
  unfold encodeEncrypted
  simp only [bind_eq_ok, ofExcept_eq_ok, get_eq_ok, modify_eq_ok, pure_eq_ok,
    validatePayloadLength_eq_ok]
  constructor
  · rintro ⟨-, _, ⟨hle, rfl⟩, w, _, ⟨hw, rfl⟩, v, _, ⟨hv, rfl⟩, _, _, ⟨rfl, rfl⟩, -, _, rfl, rfl, rfl⟩
    obtain ⟨hlt, -, rfl⟩ := FrameAux.declared_eq_ok.1 ⟨hw, hv⟩
    exact ⟨hle, hlt, rfl, rfl⟩
  · rintro ⟨hle, hlt, rfl, rfl⟩
    obtain ⟨hw, hv⟩ := FrameAux.declared_eq_ok.2 ⟨hlt, rfl, rfl⟩
    exact ⟨(), iv, ⟨hle, rfl⟩, _, iv, ⟨hw, rfl⟩, _, iv, ⟨hv, rfl⟩, iv, iv, ⟨rfl, rfl⟩, ⟨⟩, _, rfl, rfl, rfl⟩

/-- A payload whose length with the checksum does not fit the header is refused, and the IV stays. -/
theorem encodeEncrypted_overflow {payload : List UInt8} {maximum : Nat} (hmax : payload.length ≤ maximum)
    (h : 2 ^ 32 ≤ payload.length + 4) (iv : UInt32) :
    encodeEncrypted payload maximum iv = (.error .payloadLengthOverflow, iv) := by
  have hv : validatePayloadLength payload.length maximum = .ok () := validatePayloadLength_eq_ok.2 hmax
  by_cases hl : payload.length < 2 ^ 32
  · have hw : lengthWord payload.length = .ok (UInt32.ofNat payload.length) := by rw [lengthWord, if_pos hl]
    have ha : checkedAddWord (UInt32.ofNat payload.length) 4 = .error .payloadLengthOverflow := by
      have h4 : (4 : UInt32).toNat = 4 := rfl
      rw [checkedAddWord, UInt32.toNat_ofNat', Nat.mod_eq_of_lt hl, h4, if_neg (by omega)]
    exact bind_eq_error.2 (Or.inr ⟨(), iv, ofExcept_eq_ok.2 ⟨hv, rfl⟩, bind_eq_error.2 (Or.inr ⟨_, iv,
      ofExcept_eq_ok.2 ⟨hw, rfl⟩, bind_eq_error.2 (Or.inl (by rw [ha]; rfl))⟩)⟩)
  · have hw : lengthWord payload.length = .error .payloadLengthOverflow := by rw [lengthWord, if_neg hl]
    exact bind_eq_error.2 (Or.inr ⟨(), iv, ofExcept_eq_ok.2 ⟨hv, rfl⟩, bind_eq_error.2 (Or.inl (by
      rw [hw]; rfl))⟩)

/-- A frame is accepted exactly when its header, its length and its checksum are right under the IV. -/
theorem decodeEncrypted_eq_ok {frame payload : List UInt8} {maximum : Nat} {iv iv' : UInt32} :
    decodeEncrypted frame maximum iv = (.ok payload, iv') ↔
      4 ≤ frame.length ∧ 4 ≤ (iv ^^^ toU32 (frame.take 4) ^^^ headerXor).toNat ∧
      (iv ^^^ toU32 (frame.take 4) ^^^ headerXor).toNat - 4 ≤ maximum ∧
      frame.length = (iv ^^^ toU32 (frame.take 4) ^^^ headerXor).toNat + 4 ∧
      (decryptInPlace ((frame.take (frame.length - 4)).drop 4) iv).2 =
        iv ^^^ toU32 (frame.drop (frame.length - 4)) ^^^ checksumXor ∧
      payload = (decryptInPlace ((frame.take (frame.length - 4)).drop 4) iv).1 ∧ iv' = advanceIv iv := by
  unfold decodeEncrypted encryptedBodyLength
  simp only [bind_eq_ok, ofExcept_eq_ok, get_eq_ok, require_eq_ok, modify_eq_ok, pure_eq_ok,
    Checks.bind_eq_ok, Checks.ensure_eq_ok, validatePayloadLength_eq_ok]
  constructor
  · rintro ⟨-, _, ⟨h4, rfl⟩, _, _, ⟨rfl, rfl⟩, n, _, ⟨⟨-, hmin, -, hmax, hn⟩, rfl⟩, -, _, ⟨hlen, rfl⟩, -, _, ⟨hsum, rfl⟩, -, _,
      rfl, rfl, rfl⟩
    cases hn
    exact ⟨by omega, by omega, hmax, hlen, hsum, rfl, rfl⟩
  · rintro ⟨h4, hmin, hmax, hlen, hsum, rfl, rfl⟩
    exact ⟨⟨⟩, iv, ⟨by omega, rfl⟩, iv, iv, ⟨rfl, rfl⟩, _, iv, ⟨⟨(), by omega, (), hmax, rfl⟩, rfl⟩, ⟨⟩, iv, ⟨hlen, rfl⟩, ⟨⟩, iv,
      ⟨hsum, rfl⟩, ⟨⟩, _, rfl, rfl, rfl⟩

namespace FrameAux

/-- The three parts of a frame. -/
theorem frameOf_parts (payload : List UInt8) (iv : UInt32) :
    (frameOf payload iv).take 4 = ofU32 (iv ^^^ UInt32.ofNat (payload.length + 4) ^^^ headerXor) ∧
    ((frameOf payload iv).take ((frameOf payload iv).length - 4)).drop 4 = (encryptInPlace payload iv).1 ∧
    (frameOf payload iv).drop ((frameOf payload iv).length - 4) =
      ofU32 (iv ^^^ (encryptInPlace payload iv).2 ^^^ checksumXor) := by
  have hlen : (frameOf payload iv).length - 4 = 4 + payload.length := by
    rw [length_frameOf]
    omega
  have hpre : (ofU32 (iv ^^^ UInt32.ofNat (payload.length + 4) ^^^ headerXor) ++
      (encryptInPlace payload iv).1).length = 4 + payload.length := by
    rw [length_append, length_ofU32, length_encryptInPlace]
  rw [hlen]
  refine ⟨?_, ?_, ?_⟩
  · rw [frameOf, append_assoc]
    exact take_left' (length_ofU32 _)
  · rw [frameOf, take_left' hpre]
    exact drop_left' (length_ofU32 _)
  · rw [frameOf]
    exact drop_left' hpre

/-- The header of a frame declares its length. -/
theorem declared_frameOf {payload : List UInt8} (h : payload.length + 4 < 2 ^ 32) (iv : UInt32) :
    (iv ^^^ toU32 ((frameOf payload iv).take 4) ^^^ headerXor).toNat = payload.length + 4 := by
  rw [(frameOf_parts payload iv).1, toU32_ofU32, unmask, UInt32.toNat_ofNat']
  exact Nat.mod_eq_of_lt h

end FrameAux

/-- A frame decodes to the payload it was made of. -/
theorem decodeEncrypted_frameOf {payload : List UInt8} {maximum : Nat} (hmax : payload.length ≤ maximum)
    (hlt : payload.length + 4 < 2 ^ 32) (iv : UInt32) :
    decodeEncrypted (FrameAux.frameOf payload iv) maximum iv = (.ok payload, advanceIv iv) := by
  have hdec := FrameAux.declared_frameOf hlt iv
  have hlen := FrameAux.length_frameOf payload iv
  obtain ⟨-, hmid, hend⟩ := FrameAux.frameOf_parts payload iv
  rw [decodeEncrypted_eq_ok, hdec, hmid, hend, toU32_ofU32, FrameAux.unmask,
    decryptInPlace_encryptInPlace]
  exact ⟨by omega, by omega, by omega, by omega, rfl, rfl, rfl⟩

/-- Decoding leaves the IV as it was when it fails. -/
theorem atomic_decodeEncrypted (frame : List UInt8) (maximum : Nat) : Atomic (decodeEncrypted frame maximum) := by
  refine (readOnly_require _ _).bind_atomic fun _ => readOnly_get.bind_atomic fun iv =>
    (readOnly_ofExcept _).bind_atomic fun n => (readOnly_require _ _).bind_atomic fun _ =>
    (readOnly_require _ _).bind_atomic fun _ => ?_
  exact (total_modify _).atomic.bind_total fun _ => total_pure _

/-! ## A damaged frame -/

/-- A frame with one byte changed is refused. -/
theorem decodeEncrypted_oneOff {payload damaged : List UInt8} (maximum : Nat) (hlt : payload.length + 4 < 2 ^ 32) (iv : UInt32)
    (h : OneOff (FrameAux.frameOf payload iv) damaged) : ∃ e, decodeEncrypted damaged maximum iv = (.error e, iv) := by
  rcases hr : decodeEncrypted damaged maximum iv with ⟨r, iv'⟩
  cases r with
  | error e => exact ⟨e, by rw [atomic_decodeEncrypted _ _ _ _ _ hr]⟩
  | ok payload' =>
    exfalso
    obtain ⟨-, -, -, hlen', hsum, -, -⟩ := decodeEncrypted_eq_ok.1 hr
    have hdec := FrameAux.declared_frameOf hlt iv
    have hlen := FrameAux.length_frameOf payload iv
    have heq := h.length_eq
    obtain ⟨hfst, hmid, hend⟩ := FrameAux.frameOf_parts payload iv
    rw [hlen] at hmid hend
    have h8 : damaged.length - 4 = payload.length + 8 - 4 := by omega
    rw [h8] at hsum
    rcases h.split (payload.length + 8 - 4) with ⟨hlow, hhigh⟩ | ⟨hlow, hhigh⟩
    · rw [← hhigh, hend, toU32_ofU32, FrameAux.unmask] at hsum
      rcases hlow.split 4 with ⟨hhead, -⟩ | ⟨-, hbody⟩
      · -- the header is damaged: it declares another length
        rw [take_take, take_take, Nat.min_eq_left (by omega)] at hhead
        have hsame : damaged.take 4 = (FrameAux.frameOf payload iv).take 4 := by
          refine (toU32_inj (by rw [length_take]; omega) (by rw [length_take]; omega)).1 ?_
          refine FrameAux.unmask_inj iv headerXor (UInt32.toNat_inj.1 ?_)
          omega
        exact hhead.ne hsame.symm
      · -- the ciphertext is damaged: the plaintext has another checksum
        rw [hmid] at hbody
        refine decryptInPlace_ne hbody iv ?_
        rw [hsum, decryptInPlace_encryptInPlace]
    · -- the checksum is damaged
      rw [← hlow, hmid, decryptInPlace_encryptInPlace] at hsum
      rw [hend] at hhigh
      refine hhigh.ne ((toU32_inj (length_ofU32 _) ?_).1 ?_)
      · rw [length_drop]
        omega
      · rw [toU32_ofU32]
        refine FrameAux.unmask_inj iv checksumXor ?_
        rw [← hsum, FrameAux.unmask]

/-- Flipping a bit changes one byte. -/
theorem oneOff_flipBit {frame : List UInt8} {i : Nat} (h : i < 8 * frame.length) : OneOff frame (flipBit frame i) := by
  have hi : i / 8 < frame.length := by omega
  refine OneOff.set hi ?_
  rw [getD_eq_getElem?_getD, getElem?_eq_getElem hi, Option.getD_some]
  intro he
  have hbit : (1 : UInt8) <<< UInt8.ofNat (i % 8) ≠ 0 := by
    have hlt : i % 8 < 8 := Nat.mod_lt _ (by decide)
    generalize i % 8 = n at hlt
    interval_cases n <;> decide
  refine hbit ?_
  calc (1 : UInt8) <<< UInt8.ofNat (i % 8)
      = frame[i / 8] ^^^ frame[i / 8] ^^^ (1 <<< UInt8.ofNat (i % 8)) := by rw [UInt8.xor_self, UInt8.zero_xor]
    _ = frame[i / 8] ^^^ (frame[i / 8] ^^^ (1 <<< UInt8.ofNat (i % 8))) := UInt8.xor_assoc ..
    _ = frame[i / 8] ^^^ frame[i / 8] := by rw [← he]
    _ = 0 := UInt8.xor_self

/-! ## Streams -/

/-- A payload that can be sent: within the maximum, and its length with the checksum fits the header. -/
def Sendable (maximum : Nat) (payload : List UInt8) : Prop := payload.length ≤ maximum ∧ payload.length + 4 < 2 ^ 32

/-- The IV after a number of frames. -/
def ivAfter (iv : UInt32) : Nat → UInt32
  | 0 => iv
  | n + 1 => ivAfter (advanceIv iv) n

/-- The frames of payloads, one after another. -/
def framesOf : List (List UInt8) → UInt32 → List (List UInt8)
  | [], _ => []
  | payload :: payloads, iv => FrameAux.frameOf payload iv :: framesOf payloads (advanceIv iv)

/-- Payloads that can be sent are encoded. -/
theorem encodeStream_eq {maximum : Nat} {payloads : List (List UInt8)} (h : ∀ p ∈ payloads, Sendable maximum p) (iv : UInt32) :
    encodeStream maximum payloads iv = (.ok (framesOf payloads iv), ivAfter iv payloads.length) := by
  induction payloads generalizing iv with
  | nil => rfl
  | cons payload payloads ih =>
    obtain ⟨hp, hps⟩ := forall_mem_cons.1 h
    simp only [encodeStream]
    rw [bind_eq_ok]
    refine ⟨_, _, encodeEncrypted_eq_ok.2 ⟨hp.1, hp.2, rfl, rfl⟩, ?_⟩
    rw [bind_eq_ok]
    exact ⟨_, _, ih hps _, rfl⟩

/-- Their frames are decoded to them, with the same IV behind. -/
theorem decodeStream_eq {maximum : Nat} {payloads : List (List UInt8)} (h : ∀ p ∈ payloads, Sendable maximum p) (iv : UInt32) :
    decodeStream maximum (framesOf payloads iv) iv = (.ok payloads, ivAfter iv payloads.length) := by
  induction payloads generalizing iv with
  | nil => rfl
  | cons payload payloads ih =>
    obtain ⟨hp, hps⟩ := forall_mem_cons.1 h
    simp only [framesOf, decodeStream]
    rw [bind_eq_ok]
    refine ⟨_, _, decodeEncrypted_frameOf hp.1 hp.2 iv, ?_⟩
    rw [bind_eq_ok]
    exact ⟨_, _, ih hps _, rfl⟩

/-- The first frames are the frames of the first payloads. -/
theorem take_framesOf (payloads : List (List UInt8)) (iv : UInt32) (n : Nat) :
    (framesOf payloads iv).take n = framesOf (payloads.take n) iv := by
  induction n generalizing payloads iv with
  | zero => rfl
  | succ n ih =>
    cases payloads with
    | nil => rfl
    | cons payload payloads => simp only [framesOf, take_succ_cons, ih]

/-- A frame of a stream is the frame of its payload under the IV reached. -/
theorem getElem_framesOf {payloads : List (List UInt8)} {iv : UInt32} {n : Nat} {frame : List UInt8}
    (h : (framesOf payloads iv)[n]? = some frame) :
    ∃ payload ∈ payloads, n < payloads.length ∧ frame = FrameAux.frameOf payload (ivAfter iv n) := by
  induction n generalizing payloads iv with
  | zero =>
    cases payloads with
    | nil => nomatch h
    | cons payload payloads =>
      cases h
      exact ⟨payload, mem_cons_self, by simp, rfl⟩
  | succ n ih =>
    cases payloads with
    | nil => nomatch h
    | cons payload payloads =>
      obtain ⟨p, hp, hn, he⟩ := ih h
      exact ⟨p, mem_cons_of_mem _ hp, by simpa using hn, he⟩

/-- An encrypted stream of payloads that can be sent. They are all encoded; after any number of frames the receiver has decoded
just the payloads sent, with the IV of the sender; decoding that fails leaves the IV as it was; and a frame of the stream with
any one bit flipped is refused at its place. A payload within the maximum that cannot be sent is refused, and the IV stays. -/
theorem encrypted_stream (maximum : Nat) (iv : UInt32) (payloads : List (List UInt8))
    (h : ∀ p ∈ payloads, p.length ≤ maximum ∧ p.length + 4 < 2 ^ 32) :
    ∃ frames, (encodeStream maximum payloads iv).1 = .ok frames ∧ frames.length = payloads.length ∧
      (∀ n, encodeStream maximum (payloads.take n) iv = (.ok (frames.take n), (encodeStream maximum (payloads.take n) iv).2) ∧
        decodeStream maximum (frames.take n) iv =
          (.ok (payloads.take n), (encodeStream maximum (payloads.take n) iv).2)) ∧
      (∀ frame iv' e iv'', decodeEncrypted frame maximum iv' = (.error e, iv'') → iv'' = iv') ∧
      (∀ n frame i, frames[n]? = some frame → i < 8 * frame.length →
        ∃ e, decodeEncrypted (flipBit frame i) maximum (encodeStream maximum (payloads.take n) iv).2 =
          (.error e, (encodeStream maximum (payloads.take n) iv).2)) ∧
      (∀ payload iv', payload.length ≤ maximum → 2 ^ 32 ≤ payload.length + 4 →
        encodeEncrypted payload maximum iv' = (.error .payloadLengthOverflow, iv')) := by
  have htake : ∀ n, ∀ p ∈ payloads.take n, Sendable maximum p := fun n p hp => h p (mem_of_mem_take hp)
  have hlen : ∀ (ps : List (List UInt8)) (iv : UInt32), (framesOf ps iv).length = ps.length := by
    intro ps
    induction ps with
    | nil => intro iv; rfl
    | cons p ps ih => intro iv; simp only [framesOf, length_cons, ih]
  refine ⟨framesOf payloads iv, ?_, hlen payloads iv, ?_, ?_, ?_, fun _ iv' hm ho => encodeEncrypted_overflow hm ho iv'⟩
  · rw [encodeStream_eq h]
  · intro n
    rw [encodeStream_eq (htake n), take_framesOf, decodeStream_eq (htake n)]
    exact ⟨rfl, rfl⟩
  · intro frame iv' e iv'' he
    exact atomic_decodeEncrypted frame maximum iv' e iv'' he
  · intro n frame i hn hi
    obtain ⟨payload, hp, hlt, rfl⟩ := getElem_framesOf hn
    have hivn : (payloads.take n).length = n := by
      rw [length_take]
      omega
    rw [encodeStream_eq (htake n), hivn]
    exact decodeEncrypted_oneOff maximum (h payload hp).2 _ (oneOff_flipBit hi)

/-- A stream of two payloads, the first with a whole block and five bytes left over. -/
theorem encrypted_stream_two :
    ∃ frames, (encodeStream 64 [(range 21).map UInt8.ofNat, [0xc8, 0x04]] 0xa1b71c9b).1 = .ok frames ∧
      decodeStream 64 (frames.take 2) 0xa1b71c9b =
        (.ok [(range 21).map UInt8.ofNat, [0xc8, 0x04]],
          (encodeStream 64 [(range 21).map UInt8.ofNat, [0xc8, 0x04]] 0xa1b71c9b).2) ∧
      frames.length = 2 := by
  obtain ⟨frames, henc, hlen, hdec, -⟩ :=
    encrypted_stream 64 0xa1b71c9b [(range 21).map UInt8.ofNat, [0xc8, 0x04]] (by decide)
  exact ⟨frames, henc, (hdec 2).2, hlen⟩

/-- A payload within the maximum that the header has no length for: four bytes less than `2 ^ 32`. -/
theorem encrypted_stream_false :
    (replicate (2 ^ 32 - 4) (0 : UInt8)).length ≤ 2 ^ 32 ∧
    (encodeStream (2 ^ 32) [replicate (2 ^ 32 - 4) 0] 1).1 = .error .payloadLengthOverflow := by
  have hlen : (replicate (2 ^ 32 - 4) (0 : UInt8)).length = 2 ^ 32 - 4 := length_replicate
  generalize replicate (2 ^ 32 - 4) (0 : UInt8) = payload at hlen ⊢
  refine ⟨by omega, ?_⟩
  have h : encodeEncrypted payload (2 ^ 32) 1 = (.error .payloadLengthOverflow, 1) :=
    encodeEncrypted_overflow (by omega) (by omega) 1
  have hs : encodeStream (2 ^ 32) [payload] 1 = (.error .payloadLengthOverflow, 1) := bind_eq_error.2 (Or.inl h)
  rw [hs]

end Frame

end P5136
