import P5136.Lib.Elementwise
import P5136.Lib.LittleEndian

/-!
# The packet transform

A payload is XORed with a key, whole blocks of sixteen bytes word by word and the bytes left over byte by byte. On the way the
checksum of the plaintext is taken: the XOR of the words of the whole blocks and of each byte left over, shifted by its index.
Encrypting and decrypting store the same thing and differ in which side of the XOR is the plaintext.
-/

namespace P5136

namespace Crypto

open LittleEndian List

/-- `KEY_XORS`. -/
def keyXors : List UInt32 := [347277256, 2361332396, 604215233, 4089260480]

def derivedKeys (key : UInt32) : List UInt32 := keyXors.map (key ^^^ ·)

/-- There are four of them. -/
theorem length_derivedKeys (key : UInt32) : (derivedKeys key).length = 4 := rfl

def keyStream (keys : List UInt32) : List UInt8 := keys.flatMap ofU32

/-- The loop over the words of a block: each is stored under its key word and its plaintext is taken into the checksum. -/
def transformWords (plain : UInt32 → UInt32 → UInt32) : List UInt32 → List UInt8 → UInt32 → List UInt8 × UInt32
  | [], block, checksum => (block, checksum)
  | keyWord :: keys, block, checksum =>
    let word := toU32 (block.take 4)
    let (rest, checksum) := transformWords plain keys (block.drop 4) (checksum ^^^ plain word keyWord)
    (ofU32 (word ^^^ keyWord) ++ rest, checksum)

/-- The loop over the whole blocks. -/
def transformBlocks (plain : UInt32 → UInt32 → UInt32) (keys : List UInt32) :
    (blocks : Nat) → List UInt8 → UInt32 → List UInt8 × UInt32
  | 0, data, checksum => (data, checksum)
  | blocks + 1, data, checksum =>
    let (block, checksum) := transformWords plain keys (data.take 16) checksum
    let (rest, checksum) := transformBlocks plain keys blocks (data.drop 16) checksum
    (block ++ rest, checksum)

/-- The loop over the bytes left over. -/
def transformTail (plain : UInt8 → UInt8 → UInt8) :
    (stream : List UInt8) → (index : Nat) → List UInt8 → UInt32 → List UInt8 × UInt32
  | s :: stream, index, byte :: data, checksum =>
    let (rest, checksum) :=
      transformTail plain stream (index + 1) data (checksum ^^^ ((plain byte s).toUInt32 <<< UInt32.ofNat index))
    ((byte ^^^ s) :: rest, checksum)
  | _, _, data, checksum => (data, checksum)

/-- The whole blocks, then the bytes left over: what is stored in place of the data, and the checksum of the plaintext. -/
def transformInPlace (plainWord : UInt32 → UInt32 → UInt32) (plainByte : UInt8 → UInt8 → UInt8) (data : List UInt8)
    (key : UInt32) : List UInt8 × UInt32 :=
  let keys := derivedKeys key
  let fullLength := data.length / 16 * 16
  let (full, checksum) := transformBlocks plainWord keys (data.length / 16) (data.take fullLength) 0
  let (tail, checksum) := transformTail plainByte (keyStream keys) 0 (data.drop fullLength) checksum
  (full ++ tail, checksum)

/-- `encrypt_in_place`: the plaintext is what was there. -/
def encryptInPlace : List UInt8 → UInt32 → List UInt8 × UInt32 :=
  transformInPlace (fun word _ => word) (fun byte _ => byte)

/-- `decrypt_in_place`: the plaintext is what is stored. -/
def decryptInPlace : List UInt8 → UInt32 → List UInt8 × UInt32 :=
  transformInPlace (fun word keyWord => word ^^^ keyWord) (fun byte s => byte ^^^ s)

/-! ## XOR -/

/-- XOR with one word twice changes nothing. -/
theorem xor_xor_self (a b : UInt32) : a ^^^ b ^^^ b = a := by
  rw [UInt32.xor_assoc, UInt32.xor_self, UInt32.xor_zero]

/-- XOR with one byte twice changes nothing. -/
theorem xor_xor_self_byte (a b : UInt8) : a ^^^ b ^^^ b = a := by
  rw [UInt8.xor_assoc, UInt8.xor_self, UInt8.xor_zero]

/-- XOR with one word is injective. -/
theorem xor_right_inj {a b c : UInt32} (h : a ^^^ c = b ^^^ c) : a = b := by
  rw [← xor_xor_self a c, h, xor_xor_self]

/-- XOR with one word is injective. -/
theorem xor_left_inj {a b c : UInt32} (h : c ^^^ a = c ^^^ b) : a = b :=
  xor_right_inj (by rwa [UInt32.xor_comm c, UInt32.xor_comm c] at h)

/-- XOR with one byte is injective. -/
theorem xor_right_inj_byte {a b c : UInt8} (h : a ^^^ c = b ^^^ c) : a = b := by
  rw [← xor_xor_self_byte a c, h, xor_xor_self_byte]

/-- A byte shifted by at most 24 places keeps all its bits. -/
theorem shift_inj {a b : UInt8} {index : Nat} (hi : index ≤ 24)
    (h : a.toUInt32 <<< UInt32.ofNat index = b.toUInt32 <<< UInt32.ofNat index) : a = b := by
  have ha : a.toNat < 2 ^ 8 := a.toNat_lt
  have hb : b.toNat < 2 ^ 8 := b.toNat_lt
  have hidx : (UInt32.ofNat index).toNat % 32 = index := by
    rw [UInt32.toNat_ofNat']
    omega
  have hpow : 2 ^ index ≤ 2 ^ 24 := Nat.pow_le_pow_right (by decide) hi
  have hshift : ∀ x : UInt8, x.toNat < 2 ^ 8 → (x.toUInt32 <<< UInt32.ofNat index).toNat = x.toNat * 2 ^ index := by
    intro x hx
    rw [UInt32.toNat_shiftLeft, hidx, UInt8.toNat_toUInt32, Nat.shiftLeft_eq, Nat.mod_eq_of_lt]
    calc x.toNat * 2 ^ index ≤ x.toNat * 2 ^ 24 := Nat.mul_le_mul_left _ hpow
      _ < 2 ^ 8 * 2 ^ 24 := Nat.mul_lt_mul_of_pos_right hx (by decide)
      _ = 2 ^ 32 := by decide
  have hmul : a.toNat * 2 ^ index = b.toNat * 2 ^ index := by rw [← hshift a ha, ← hshift b hb, h]
  exact UInt8.toNat_inj.1 (Nat.eq_of_mul_eq_mul_right (Nat.two_pow_pos index) hmul)

/-! ## Decrypting undoes encrypting -/

namespace CryptoAux

/-- Words are transformed in place. -/
theorem length_transformWords (plain : UInt32 → UInt32 → UInt32) (keys : List UInt32) (block : List UInt8) (c : UInt32)
    (h : block.length = 4 * keys.length) : (transformWords plain keys block c).1.length = block.length := by
  induction keys generalizing block c with
  | nil => rfl
  | cons k keys ih =>
    simp only [length_cons] at h
    simp only [transformWords, length_append, length_ofU32]
    rw [ih _ _ (by rw [length_drop]; omega), length_drop]
    omega

/-- Whole blocks are transformed in place. -/
theorem length_transformBlocks (plain : UInt32 → UInt32 → UInt32) {keys : List UInt32} (hk : keys.length = 4) (n : Nat)
    (data : List UInt8) (c : UInt32) (h : data.length = n * 16) :
    (transformBlocks plain keys n data c).1.length = data.length := by
  induction n generalizing data c with
  | zero => rfl
  | succ n ih =>
    have ht : (data.take 16).length = 4 * keys.length := by
      rw [length_take]
      omega
    simp only [transformBlocks, length_append]
    rw [length_transformWords plain keys _ c ht, ih _ _ (by rw [length_drop]; omega), ← length_append,
      take_append_drop]

/-- The bytes left over are transformed in place. -/
theorem length_transformTail (plain : UInt8 → UInt8 → UInt8) (stream : List UInt8) (index : Nat) (data : List UInt8)
    (c : UInt32) : (transformTail plain stream index data c).1.length = data.length := by
  induction stream generalizing index data c with
  | nil => simp [transformTail]
  | cons s stream ih =>
    cases data with
    | nil => simp [transformTail]
    | cons byte data => simp only [transformTail, length_cons, ih]

/-- Decrypting encrypted words returns them, with the checksum they were encrypted with. -/
theorem decryptWords_encryptWords (keys : List UInt32) (block : List UInt8) (c : UInt32)
    (h : block.length = 4 * keys.length) :
    transformWords (fun word keyWord => word ^^^ keyWord) keys (transformWords (fun word _ => word) keys block c).1 c =
      (block, (transformWords (fun word _ => word) keys block c).2) := by
  induction keys generalizing block c with
  | nil => rfl
  | cons k keys ih =>
    simp only [length_cons] at h
    have hb : (block.take 4).length = 4 := by
      rw [length_take]
      omega
    have hd : (block.drop 4).length = 4 * keys.length := by
      rw [length_drop]
      omega
    have ht : ∀ (w : UInt32) (l : List UInt8), (ofU32 w ++ l).take 4 = ofU32 w := fun w l =>
      take_left' (length_ofU32 w)
    have hr : ∀ (w : UInt32) (l : List UInt8), (ofU32 w ++ l).drop 4 = l := fun w l =>
      drop_left' (length_ofU32 w)
    simp only [transformWords, ht, hr, toU32_ofU32, xor_xor_self, ih _ _ hd, ofU32_toU32 hb,
      take_append_drop]

/-- Decrypting encrypted blocks returns them, with the checksum they were encrypted with. -/
theorem decryptBlocks_encryptBlocks {keys : List UInt32} (hk : keys.length = 4) (n : Nat) (data : List UInt8) (c : UInt32)
    (h : data.length = n * 16) :
    transformBlocks (fun word keyWord => word ^^^ keyWord) keys n (transformBlocks (fun word _ => word) keys n data c).1 c =
      (data, (transformBlocks (fun word _ => word) keys n data c).2) := by
  induction n generalizing data c with
  | zero => rfl
  | succ n ih =>
    have hlen : (data.take 16).length = 16 := by
      rw [length_take]
      omega
    have hblock : (data.take 16).length = 4 * keys.length := by omega
    have hrest : (data.drop 16).length = n * 16 := by
      rw [length_drop]
      omega
    have hw := length_transformWords (fun word _ => word) keys (data.take 16) c hblock
    rw [hlen] at hw
    simp only [transformBlocks, take_left' hw, drop_left' hw, decryptWords_encryptWords keys _ c hblock,
      ih _ _ hrest, take_append_drop]

/-- Decrypting encrypted bytes returns them, with the checksum they were encrypted with. -/
theorem decryptTail_encryptTail (stream : List UInt8) (index : Nat) (data : List UInt8) (c : UInt32) :
    transformTail (fun byte s => byte ^^^ s) stream index (transformTail (fun byte _ => byte) stream index data c).1 c =
      (data, (transformTail (fun byte _ => byte) stream index data c).2) := by
  induction stream generalizing index data c with
  | nil => simp [transformTail]
  | cons s stream ih =>
    cases data with
    | nil => simp [transformTail]
    | cons byte data => simp only [transformTail, xor_xor_self_byte, ih]

end CryptoAux

/-- Encrypting keeps the length. -/
theorem length_encryptInPlace (data : List UInt8) (key : UInt32) : (encryptInPlace data key).1.length = data.length := by
  have hf : (data.take (data.length / 16 * 16)).length = data.length / 16 * 16 := by
    rw [length_take]
    omega
  simp only [encryptInPlace, transformInPlace, length_append, CryptoAux.length_transformTail]
  rw [CryptoAux.length_transformBlocks _ rfl _ _ _ hf, ← length_append, take_append_drop]

/-- Decrypting returns the plaintext and the checksum that encrypting returned. -/
theorem decryptInPlace_encryptInPlace (data : List UInt8) (key : UInt32) :
    decryptInPlace (encryptInPlace data key).1 key = (data, (encryptInPlace data key).2) := by
  have hlen := length_encryptInPlace data key
  have hf : (data.take (data.length / 16 * 16)).length = data.length / 16 * 16 := by
    rw [length_take]
    omega
  have hb := CryptoAux.length_transformBlocks (fun word _ => word) (length_derivedKeys key) _ _ 0 hf
  rw [hf] at hb
  unfold decryptInPlace transformInPlace
  simp only [hlen]
  simp only [encryptInPlace, transformInPlace, take_left' hb, drop_left' hb,
    CryptoAux.decryptBlocks_encryptBlocks (length_derivedKeys key) _ _ _ hf, CryptoAux.decryptTail_encryptTail,
    take_append_drop]

/-! ## One byte changes the checksum -/

namespace CryptoAux

/-- The loop over the words keeps two checksums apart. -/
theorem transformWords_ne_of_checksum (plain : UInt32 → UInt32 → UInt32) (keys : List UInt32) (block : List UInt8)
    {c c' : UInt32} (h : c ≠ c') : (transformWords plain keys block c).2 ≠ (transformWords plain keys block c').2 := by
  induction keys generalizing block c c' with
  | nil => exact h
  | cons k keys ih =>
    simp only [transformWords]
    exact ih _ fun he => h (xor_right_inj he)

/-- The loop over the blocks keeps two checksums apart. -/
theorem transformBlocks_ne_of_checksum (plain : UInt32 → UInt32 → UInt32) (keys : List UInt32) (n : Nat)
    (data : List UInt8) {c c' : UInt32} (h : c ≠ c') :
    (transformBlocks plain keys n data c).2 ≠ (transformBlocks plain keys n data c').2 := by
  induction n generalizing data c c' with
  | zero => exact h
  | succ n ih =>
    simp only [transformBlocks]
    exact ih _ (transformWords_ne_of_checksum plain keys _ h)

/-- The loop over the bytes left over keeps two checksums apart. -/
theorem transformTail_ne_of_checksum (plain : UInt8 → UInt8 → UInt8) (stream : List UInt8) (index : Nat)
    (data : List UInt8) {c c' : UInt32} (h : c ≠ c') :
    (transformTail plain stream index data c).2 ≠ (transformTail plain stream index data c').2 := by
  induction stream generalizing index data c c' with
  | nil => simpa [transformTail] using h
  | cons s stream ih =>
    cases data with
    | nil => simpa [transformTail] using h
    | cons byte data =>
      simp only [transformTail]
      exact ih _ _ fun he => h (xor_right_inj he)

variable {plainWord : UInt32 → UInt32 → UInt32} {plainByte : UInt8 → UInt8 → UInt8}

/-- Words that differ in one byte have different checksums. -/
theorem transformWords_ne (hp : ∀ k a b, plainWord a k = plainWord b k → a = b) (keys : List UInt32) {block block' : List UInt8}
    (hlen : block.length = 4 * keys.length) (h : OneOff block block') (c : UInt32) :
    (transformWords plainWord keys block c).2 ≠ (transformWords plainWord keys block' c).2 := by
  induction keys generalizing block block' c with
  | nil =>
    have : block = [] := length_eq_zero_iff.1 (by simpa using hlen)
    subst this
    cases h
  | cons k keys ih =>
    simp only [length_cons] at hlen
    have hlen' := h.length_eq
    simp only [transformWords]
    rcases h.split 4 with ⟨h1, h2⟩ | ⟨h1, h2⟩
    · rw [h2]
      refine transformWords_ne_of_checksum _ _ _ fun he => ?_
      have hw := hp k _ _ (xor_left_inj he)
      rw [toU32_inj (by rw [length_take]; omega) (by rw [length_take]; omega)] at hw
      exact h1.ne hw
    · rw [h1]
      exact ih (by rw [length_drop]; omega) h2 _

/-- Blocks that differ in one byte have different checksums. -/
theorem transformBlocks_ne (hp : ∀ k a b, plainWord a k = plainWord b k → a = b) {keys : List UInt32} (hk : keys.length = 4)
    (n : Nat) {data data' : List UInt8} (hlen : data.length = n * 16) (h : OneOff data data') (c : UInt32) :
    (transformBlocks plainWord keys n data c).2 ≠ (transformBlocks plainWord keys n data' c).2 := by
  induction n generalizing data data' c with
  | zero =>
    have : data = [] := length_eq_zero_iff.1 (by simpa using hlen)
    subst this
    cases h
  | succ n ih =>
    simp only [transformBlocks]
    rcases h.split 16 with ⟨h1, h2⟩ | ⟨h1, h2⟩
    · rw [h2]
      exact transformBlocks_ne_of_checksum _ _ _ _ (transformWords_ne hp keys (by rw [length_take]; omega) h1 c)
    · rw [h1]
      exact ih (by rw [length_drop]; omega) h2 _

/-- Bytes left over that differ in one byte have different checksums: no shift loses a bit. -/
theorem transformTail_ne (hp : ∀ s a b, plainByte a s = plainByte b s → a = b) (stream : List UInt8) {index : Nat}
    {data data' : List UInt8} (hlen : data.length ≤ stream.length) (hi : index + stream.length ≤ 25) (h : OneOff data data')
    (c : UInt32) : (transformTail plainByte stream index data c).2 ≠ (transformTail plainByte stream index data' c).2 := by
  induction stream generalizing index data data' c with
  | nil =>
    have : data = [] := length_eq_zero_iff.1 (by simpa using hlen)
    subst this
    cases h
  | cons s stream ih =>
    simp only [length_cons] at hlen hi
    cases h with
    | here l hab =>
      simp only [transformTail]
      refine transformTail_ne_of_checksum _ _ _ _ fun he => hab ?_
      exact hp s _ _ (shift_inj (by omega) (xor_left_inj he))
    | later a h =>
      simp only [transformTail]
      exact ih (by simpa using hlen) (by omega) h _

end CryptoAux

/-- Ciphertexts that differ in one byte decrypt to plaintexts with different checksums. -/
theorem decryptInPlace_ne {data data' : List UInt8} (h : OneOff data data') (key : UInt32) :
    (decryptInPlace data key).2 ≠ (decryptInPlace data' key).2 := by
  have hlen := h.length_eq
  have hword : ∀ k a b : UInt32, a ^^^ k = b ^^^ k → a = b := fun k a b he => xor_right_inj he
  have hbyte : ∀ s a b : UInt8, a ^^^ s = b ^^^ s → a = b := fun s a b he => xor_right_inj_byte he
  simp only [decryptInPlace, transformInPlace, ← hlen]
  rcases h.split (data.length / 16 * 16) with ⟨h1, h2⟩ | ⟨h1, h2⟩
  · rw [h2]
    refine CryptoAux.transformTail_ne_of_checksum _ _ _ _ ?_
    exact CryptoAux.transformBlocks_ne hword rfl _ (by rw [length_take]; omega) h1 0
  · rw [h1]
    have hs : (keyStream (derivedKeys key)).length = 16 := rfl
    refine CryptoAux.transformTail_ne hbyte _ ?_ (by omega) h2 _
    rw [hs, length_drop]
    omega

end Crypto

end P5136
