import P5136.Lib.Takes
import P5136.Rho5.Reader
import P5136.Rho5.Writer

/-!
# What the decrypting reader reads

The bytes that a decrypting reader has still to hand out, and the calls that take a given spelling from it. A field that was
spelled at its front is read back, whatever follows it.
-/

namespace P5136

namespace DecryptReader

/-- The bytes to be handed out: those of the word decrypted last, then those of the whole words that are left. -/
def pending (reader : DecryptReader) : List UInt8 :=
  reader.decryptedWord ++ WordCipher.decryptWords reader.words reader.wordIndex reader.file

/-- Between two positions, a reader presents the bytes up to the second. -/
structure Presents (start stop : Nat) (reader : DecryptReader) (left : List UInt8) : Prop where
  stop_lt : stop < 2 ^ 64
  start_le : start ≤ reader.logicalPosition
  stop_eq : reader.logicalPosition + left.length = stop
  pending_eq : ∃ behind, reader.pending = left ++ behind

variable {start stop : Nat}

/-! ## Bytes and numbers -/

/-- A byte. -/
theorem takes_nextByte (path operation : String) (byte : UInt8) :
    Takes (Presents start stop) (nextByte path operation) [byte] byte := by
  rintro reader rest ⟨hlt, hstart, hstop, behind, hp⟩
  obtain ⟨file, words, wordIndex, decryptedWord, logicalPosition⟩ := reader
  simp only [List.length_append, List.length_singleton] at hstop
  rw [List.append_assoc] at hp
  -- the word that is at hand once it is refilled
  have hrefill : ∃ reader' tail, refill path operation ⟨file, words, wordIndex, decryptedWord, logicalPosition⟩ =
      (.ok ⟨⟩, reader') ∧ reader'.decryptedWord = byte :: tail ∧
      tail ++ WordCipher.decryptWords reader'.words reader'.wordIndex reader'.file = rest ++ behind ∧
      reader'.logicalPosition = logicalPosition := by
    cases decryptedWord with
    | cons b tail =>
      rw [pending, List.cons_append, List.singleton_append, List.cons.injEq] at hp
      exact ⟨_, tail, rfl, by rw [hp.1], hp.2, rfl⟩
    | nil =>
      rw [pending, List.nil_append, List.singleton_append] at hp
      match file, hp with
      | a :: b :: c :: d :: file, hp =>
        have hbytes := LittleEndian.length_ofU32 (LittleEndian.toU32 [a, b, c, d] - words wordIndex)
        rw [WordCipher.decryptWords] at hp
        cases hword : LittleEndian.ofU32 (LittleEndian.toU32 [a, b, c, d] - words wordIndex) with
        | nil => simp [hword] at hbytes
        | cons x xs =>
          rw [hword, List.cons_append, List.cons.injEq] at hp
          refine ⟨⟨file, words, wordIndex + 1, x :: xs, logicalPosition⟩, xs, ?_, by rw [hp.1], hp.2, rfl⟩
          simp only [refill, List.length_cons]
          rw [if_pos (by omega)]
          simp [hword]
      | [], hp | [_], hp | [_, _], hp | [_, _, _], hp => simp [WordCipher.decryptWords] at hp
  obtain ⟨reader', tail, hr, hword, hrest, hl⟩ := hrefill
  refine ⟨{ reader' with decryptedWord := tail, logicalPosition := logicalPosition + 1 }, ?_, hlt, Nat.le_succ_of_le hstart, ?_,
    behind, hrest⟩
  swap
  · simp only
    omega
  unfold nextByte
  simp only [Act.bind_eq_ok, Act.get_eq_ok, Act.ofExcept_eq_ok, Checks.orElse_eq_ok, Checked.add_eq_some, Act.modify_eq_ok,
    Act.pure_eq_ok]
  refine ⟨⟨⟩, reader', hr, reader', reader', ⟨rfl, rfl⟩, logicalPosition + 1, reader', ⟨⟨by rw [hl], by omega⟩, rfl⟩, ⟨⟩, _, rfl,
    ?_, ?_⟩
  · rw [hword]
    rfl
  · rw [hword]
    rfl

/-- Bytes. -/
theorem takes_readExact (path operation : String) (out : List UInt8) :
    Takes (Presents start stop) (readExact path operation out.length) out out := by
  induction out with
  | nil => exact Takes.pure _
  | cons b out ih =>
    exact (takes_nextByte path operation b).bind ih.map

/-- Bytes of a known number. -/
theorem takes_readExact_of_length (path operation : String) {out : List UInt8} {n : Nat} (h : out.length = n) :
    Takes (Presents start stop) (readExact path operation n) out out := by
  subst h
  exact takes_readExact path operation out

/-- A signed word. -/
theorem takes_readI32 (path operation : String) (i : Int32) :
    Takes (Presents start stop) (readI32 path operation) (LittleEndian.ofInt32 i) i := by
  have hread : Takes (Presents start stop) (readExact path operation 4) (LittleEndian.ofInt32 i) (LittleEndian.ofInt32 i) :=
    takes_readExact_of_length path operation (LittleEndian.length_ofInt32 i)
  have hmap := hread.map (f := LittleEndian.toInt32)
  rwa [LittleEndian.toInt32_ofInt32] at hmap

/-- A small number. -/
theorem takes_readU8 (path operation : String) (b : UInt8) : Takes (Presents start stop) (readU8 path operation) [b] b :=
  (takes_readExact_of_length path operation rfl).map

end DecryptReader

namespace Rho5

open DecryptReader

variable {start stop : Nat}

/-! ## The header -/

/-- The header that was written is read. -/
theorem takes_readHeader (path : String) (fileCount : Int32) :
    Takes (Presents start stop) (readHeader path) (headerBytes fileCount) (version.toUInt32.toInt32 + fileCount, version, fileCount) :=
  (takes_readI32 path _ _).bind ((takes_readU8 path _ _).bind (takes_readI32 path _ _).map)

/-! ## The table -/

/-- The digest of the bytes of a digest is that digest. -/
@[simp] theorem toMd5_toList (md5 : Vector UInt8 16) : toMd5 md5.toList = md5 := by
  ext i hi
  simp [toMd5, List.getD]

/-- The path that was written is read, when it is not empty and not too long. -/
theorem takes_readEntryPath (path : String) (entryIndex : Nat) {limits : Rho5Limits} {entryPath : String} {units : Int32}
    (hu : Checked.toInt32 (pathUnits entryPath).length = some units) (hne : (pathUnits entryPath).length ≠ 0)
    (hle : (pathUnits entryPath).length ≤ limits.maxPathUtf16Units) :
    Takes (Presents start stop) (readEntryPath path entryIndex limits)
      (LittleEndian.ofInt32 units ++ (pathUnits entryPath).flatMap LittleEndian.ofU16) entryPath := by
  have hlt : (pathUnits entryPath).length < 2 ^ 31 := (Checked.toInt32_eq_some.1 hu).2
  have hmul : Checked.mul (pathUnits entryPath).length 2 = some ((pathUnits entryPath).length * 2) :=
    Checked.mul_eq_some.2 ⟨rfl, by omega⟩
  have hdecode : (Utf16.decode (LittleEndian.words ((pathUnits entryPath).flatMap LittleEndian.ofU16))).map String.ofList =
      some entryPath := by
    rw [LittleEndian.words_ofU16, pathUnits, Utf16.decode_encode, Option.map_some, String.ofList_toList]
  refine (takes_readI32 path _ units).bind ?_
  refine (Takes.ofExcept (Checks.orElse_eq_ok.2 (Checked.ofInt32_of_toInt32 hu))).bind_nil ?_
  refine (Takes.require hne).bind_nil ?_
  refine (Takes.require (by omega)).bind_nil ?_
  refine (Takes.ofExcept (Checks.orElse_eq_ok.2 hmul)).bind_nil ?_
  exact (takes_readExact_of_length path _ (LittleEndian.length_flatMap_ofU16 (pathUnits entryPath))).bind_end
    (Takes.ofExcept (Checks.orElse_eq_ok.2 hdecode))

/-- A path that is too long is rejected. -/
theorem rejects_readEntryPath (path : String) (entryIndex : Nat) {limits : Rho5Limits} {entryPath : String} {units : Int32}
    (hu : Checked.toInt32 (pathUnits entryPath).length = some units) (hne : (pathUnits entryPath).length ≠ 0)
    (hgt : (pathUnits entryPath).length > limits.maxPathUtf16Units) (out : List UInt8) :
    Rejects (Presents start stop) (readEntryPath path entryIndex limits) (LittleEndian.ofInt32 units ++ out)
      (.pathTooLong path entryIndex (pathUnits entryPath).length limits.maxPathUtf16Units) := by
  refine (takes_readI32 path _ units).bind_rejects ?_
  refine (Takes.ofExcept (Checks.orElse_eq_ok.2 (Checked.ofInt32_of_toInt32 hu))).nil_bind_rejects ?_
  refine (Takes.require hne).nil_bind_rejects ?_
  exact (Rejects.require (not_not_intro hgt) out).bind

/-- The fields that were written are read. -/
theorem takes_readEntryMetadata (path : String) (metadata : RawEntryMetadata) :
    Takes (Presents start stop) (readEntryMetadata path) (LittleEndian.ofInt32 metadata.entryChecksum ++
      (LittleEndian.ofInt32 metadata.unknown ++
      (LittleEndian.ofInt32 metadata.blockOffset ++ (LittleEndian.ofInt32 metadata.plaintextSize ++
      (LittleEndian.ofInt32 metadata.compressedSize ++ metadata.plaintextMd5.toList))))) metadata := by
  have hread : Takes (Presents start stop) (readExact path "read RHO5 plaintext MD5" 16) metadata.plaintextMd5.toList
      metadata.plaintextMd5.toList := takes_readExact_of_length path _ (by simp)
  have hmd5 := hread.map (f := fun md5 => RawEntryMetadata.mk metadata.entryChecksum metadata.unknown metadata.blockOffset
    metadata.plaintextSize metadata.compressedSize (toMd5 md5))
  rw [toMd5_toList] at hmd5
  exact (takes_readI32 path _ _).bind ((takes_readI32 path _ _).bind ((takes_readI32 path _ _).bind
    ((takes_readI32 path _ _).bind ((takes_readI32 path _ _).bind hmd5))))

end Rho5

end P5136
