import P5136.Core.BmlFormat
import P5136.Lib.Agree
import P5136.Rho5.Aaa

/-!
# The two binary-XML codecs agree

The codec of the pack-folder index and the BML codec of logins were written apart. Compared step by step they accept the same
bytes and write the same bytes, for corresponding limits. The document around the index then decodes to what was encoded.
-/

namespace P5136

open Act LittleEndian Format AaaReader

/-! ## Corresponding trees and limits -/

/-- The limits of a BML tree that correspond to the limits of an index. -/
def AaaLimits.toBml (limits : AaaLimits) : BmlLimits where
  maxDepth := limits.maxDepth
  maxNodes := limits.maxNodes
  maxAttributesPerNode := limits.maxAttributesPerNode
  maxChildrenPerNode := limits.maxChildrenPerNode
  maxStringCodeUnits := limits.maxStringUtf16Units

/-- No limit is zero. -/
def AaaLimits.Nonzero (limits : AaaLimits) : Prop :=
  limits.maxFileBytes ≠ 0 ∧ limits.maxPlaintextBytes ≠ 0 ∧ limits.maxNodes ≠ 0 ∧ limits.maxDepth ≠ 0 ∧
    limits.maxAttributesPerNode ≠ 0 ∧ limits.maxChildrenPerNode ≠ 0 ∧ limits.maxStringUtf16Units ≠ 0

/-- The limits are valid exactly when none is zero. -/
theorem Aaa.validateLimits_eq_ok {limits : AaaLimits} {x : Unit} : Aaa.validateLimits limits = .ok x ↔ limits.Nonzero := by
  have hfield : ∀ (field : String × Nat),
      (if field.2 = 0 then Except.error (AaaError.invalidLimit field.1) else Except.ok ()) = .ok () ↔ field.2 ≠ 0 := by
    intro field
    split <;> simp_all
  simp only [validateLimits, Checks.all_eq_ok, hfield, AaaLimits.Nonzero, List.forall_mem_cons]
  simp

namespace AaaNode

mutual

/-- The BML tree of a tree: the text is the value. -/
def toBml : AaaNode → BmlNode
  | ⟨name, text, attributes, children⟩ => ⟨name, text, attributes, toBmlAll children⟩

/-- The BML trees of trees. -/
def toBmlAll : List AaaNode → List BmlNode
  | [] => []
  | child :: children => toBml child :: toBmlAll children

end

mutual

/-- The tree of a BML tree: the value is the text. -/
def ofBml : BmlNode → AaaNode
  | ⟨name, value, attributes, children⟩ => ⟨name, value, attributes, ofBmlAll children⟩

/-- The trees of BML trees. -/
def ofBmlAll : List BmlNode → List AaaNode
  | [] => []
  | child :: children => ofBml child :: ofBmlAll children

end

mutual

theorem ofBml_toBml : ∀ node : AaaNode, ofBml (toBml node) = node
  | ⟨name, text, attributes, children⟩ => by
    rw [toBml, ofBml, ofBmlAll_toBmlAll children]

theorem ofBmlAll_toBmlAll : ∀ children : List AaaNode, ofBmlAll (toBmlAll children) = children
  | [] => by rw [toBmlAll, ofBmlAll]
  | child :: children => by
    rw [toBmlAll, ofBmlAll, ofBml_toBml child, ofBmlAll_toBmlAll children]

end

mutual

theorem toBml_ofBml : ∀ node : BmlNode, toBml (ofBml node) = node
  | ⟨name, value, attributes, children⟩ => by
    rw [ofBml, toBml, toBmlAll_ofBmlAll children]

theorem toBmlAll_ofBmlAll : ∀ children : List BmlNode, toBmlAll (ofBmlAll children) = children
  | [] => by rw [ofBmlAll, toBmlAll]
  | child :: children => by
    rw [ofBmlAll, toBmlAll, toBml_ofBml child, toBmlAll_ofBmlAll children]

end

/-- Every BML tree is the BML tree of exactly one tree. -/
theorem toBml_bijective : Function.Bijective toBml :=
  ⟨Function.LeftInverse.injective ofBml_toBml, Function.RightInverse.surjective toBml_ofBml⟩

/-- Trees in a row correspond when each does. -/
theorem forall₂_toBml {as : List AaaNode} {bs : List BmlNode} (h : List.Forall₂ (fun a b => toBml a = b) as bs) :
    toBmlAll as = bs := by
  induction h with
  | nil => rw [toBmlAll]
  | cons h _ ih => rw [toBmlAll, h, ih]

/-- A tree has as many children as its BML tree. -/
theorem length_toBmlAll (children : List AaaNode) : (toBmlAll children).length = children.length := by
  induction children with
  | nil =>
    rw [toBmlAll]
    rfl
  | cons child children ih => rw [toBmlAll, List.length_cons, List.length_cons, ih]

end AaaNode

namespace Aaa

/-! ## Reading -/

/-- Both codecs read a signed number in the same way. -/
theorem agree_i32 (context : String) : Agree Eq (i32 context) PacketReader.readI32 :=
  (agree_takeOr 4 _ _).bind_eq fun _ => agree_pure rfl

/-- A value that must be there agrees with itself. -/
theorem agree_orElse {σ α ε ε' : Type} (o : Option α) (e : ε) (e' : ε') :
    Agree Eq (ofExcept (Checks.orElse o e) : Act σ ε α) (ofExcept (Checks.orElse o e')) :=
  agree_ofExcept fun a => by rw [Checks.orElse_eq_ok, Checks.orElse_eq_ok]

/-- A count is within the maximum. -/
theorem checkCount_eq_ok {kind : String} {actual maximum : Nat} {x : Unit} :
    checkCount kind actual maximum = .ok x ↔ ¬actual > maximum := by
  unfold checkCount
  split <;> simp_all

/-- Checking a count agrees with requiring its bound. -/
theorem agree_checkCount {σ ε : Type} (kind : String) (actual maximum : Nat) (e : ε) :
    Agree Eq (ofExcept (checkCount kind actual maximum) : Act σ AaaError Unit)
      (require (¬actual > maximum) e) := by
  refine Agree.of_iff fun s a t => ?_
  rw [ofExcept_eq_ok, require_eq_ok, checkCount_eq_ok]

/-- Both codecs read a count in the same way. -/
theorem agree_boundedCount (kind kind' : String) (maximum : Nat) :
    Agree Eq (boundedCount kind maximum) (Bml.readCount kind' maximum) := by
  unfold boundedCount nonnegativeI32 Bml.readCount
  rw [bind_assoc]
  exact ((agree_i32 _).mapError_right _).bind_eq fun i => (agree_orElse _ _ _).bind_eq fun n =>
    (agree_checkCount _ _ _ _).bind_eq fun _ => agree_pure rfl

/-- Both codecs read a string in the same way. -/
theorem agree_utf16 (limits : AaaLimits) :
    Agree Eq (utf16 limits.maxStringUtf16Units) (Bml.readString limits.toBml) := by
  refine Agree.mapError_right ?_ _
  unfold utf16 nonnegativeI32 PacketReader.readUtf16Bounded
  rw [bind_assoc]
  exact (agree_i32 _).bind_eq fun i => (agree_orElse _ _ _).bind_eq fun n => (agree_require Iff.rfl _ _).bind_eq fun _ =>
    (agree_orElse _ _ _).bind_eq fun m => (agree_takeOr m _ _).bind_eq fun l => agree_orElse _ _ _

/-- Both codecs read an attribute in the same way. -/
theorem agree_readAttribute (limits : AaaLimits) :
    Agree Eq (readAttribute limits) (Bml.readAttribute limits.toBml) :=
  (agree_utf16 limits).bind_eq fun _ => (agree_utf16 limits).bind_eq fun _ => agree_pure rfl

/-- A node is entered when its depth and the number of nodes with it are within the limits. -/
theorem enterNode_eq_ok {limits : AaaLimits} {depth nodeCount m : Nat} :
    enterNode limits depth nodeCount = .ok m ↔ Bml.checkNodeAdmission limits.toBml depth nodeCount = .ok m := by
  have hd : limits.toBml.maxDepth = limits.maxDepth := rfl
  have hn : limits.toBml.maxNodes = limits.maxNodes := rfl
  unfold enterNode Bml.checkNodeAdmission
  rw [hd, hn]
  split
  · simp
  · cases Checked.add nodeCount 1 with
    | none => simp
    | some k =>
      simp only
      split <;> simp

/-- Both codecs read a node in the same way, on every level. -/
theorem agree_decodeNode (limits : AaaLimits) (levels depth nodeCount : Nat) :
    Agree (fun p q => p.1.toBml = q.1 ∧ p.2 = q.2) (decodeNode limits levels depth nodeCount)
      (Bml.decodeNode limits.toBml levels depth nodeCount) := by
  induction levels generalizing depth nodeCount with
  | zero => exact agree_fail _ _
  | succ levels ih =>
    refine (agree_ofExcept fun _ => enterNode_eq_ok).bind_eq fun n => (agree_utf16 limits).bind_eq fun name =>
      (agree_utf16 limits).bind_eq fun text => (agree_boundedCount _ _ _).bind_eq fun attributeCount =>
      (agree_collect (agree_readAttribute limits) attributeCount).bind_eq fun attributes =>
      (agree_boundedCount _ _ _).bind_eq fun childCount =>
      (agree_times (R := fun a b => AaaNode.toBml a = b) (fun k => ih (depth + 1) k) childCount n).bind ?_
    rintro ⟨children, k⟩ ⟨children', k'⟩ ⟨hchildren, rfl⟩
    refine agree_pure ⟨?_, rfl⟩
    rw [AaaNode.toBml, AaaNode.forall₂_toBml hchildren]

/-! ## Writing -/

/-- Both codecs write a string in the same way. -/
theorem agree_pushUtf16 (value field : String) (limits : AaaLimits) :
    Agree Eq (pushUtf16 value limits) (Bml.writeBoundedString value field limits.toBml) := by
  unfold pushUtf16 pushI32 Bml.writeBoundedString
  refine (agree_require Iff.rfl _ _).bind_eq fun _ => Agree.mapError_right ?_ _
  unfold PacketWriter.writeUtf16
  rw [bind_assoc]
  exact (agree_orElse _ _ _).bind_eq fun i => (agree_modify _).bind_eq fun _ =>
    agree_writeAll (fun u => agree_modify _) _

/-- Both codecs write an attribute in the same way. -/
theorem agree_pushAttribute (limits : AaaLimits) (pair : String × String) :
    Agree Eq (pushAttribute limits pair) (Bml.writeAttribute limits.toBml pair) :=
  (agree_pushUtf16 pair.1 _ limits).bind_eq fun _ => agree_pushUtf16 pair.2 _ limits

/-- Both codecs write a count in the same way. -/
theorem agree_pushCount (kind kind' : String) (count maximum : Nat) :
    Agree Eq (pushCount kind count maximum) (Bml.writeCount kind' count maximum) := by
  unfold pushCount pushI32 Bml.writeCount
  exact (agree_checkCount _ _ _ _).bind_eq fun _ => (agree_orElse _ _ _).bind_eq fun i => agree_modify _

mutual

/-- Both codecs write a node in the same way. -/
theorem agree_encodeNode (limits : AaaLimits) : ∀ (node : AaaNode) (depth nodeCount : Nat),
    Agree Eq (encodeNode limits node depth nodeCount) (Bml.encodeNode limits.toBml node.toBml depth nodeCount)
  | ⟨name, text, attributes, children⟩, depth, nodeCount => by
    have hchildren := agree_encodeChildren limits children (depth + 1)
    unfold encodeNode AaaNode.toBml Bml.encodeNode
    rw [AaaNode.length_toBmlAll]
    exact (agree_ofExcept fun _ => enterNode_eq_ok).bind_eq fun n => (agree_pushUtf16 name _ limits).bind_eq fun _ =>
      (agree_pushUtf16 text _ limits).bind_eq fun _ => (agree_pushCount _ _ _ _).bind_eq fun _ =>
      (agree_writeAll (agree_pushAttribute limits) attributes).bind_eq fun _ =>
      (agree_pushCount _ _ _ _).bind_eq fun _ => hchildren n

/-- Both codecs write nodes in a row in the same way. -/
theorem agree_encodeChildren (limits : AaaLimits) : ∀ (children : List AaaNode) (depth nodeCount : Nat),
    Agree Eq (encodeChildren limits children depth nodeCount)
      (Bml.encodeChildren limits.toBml (AaaNode.toBmlAll children) depth nodeCount)
  | [], depth, nodeCount => by
    unfold encodeChildren AaaNode.toBmlAll Bml.encodeChildren
    exact agree_pure rfl
  | child :: children, depth, nodeCount => by
    have hchild := agree_encodeNode limits child depth nodeCount
    have hchildren := agree_encodeChildren limits children depth
    unfold encodeChildren AaaNode.toBmlAll Bml.encodeChildren
    exact hchild.bind_eq fun n => hchildren n

end

end Aaa

/-! ## The codecs -/

namespace AaaNode

/-- A tree is decoded from bytes exactly when the BML codec decodes it and consumes them all. -/
theorem decodeBinaryXml_eq_ok {bytes : List UInt8} {limits : AaaLimits} {node : AaaNode} (hl : limits.Nonzero)
    (hb : bytes.length ≤ limits.maxPlaintextBytes) :
    decodeBinaryXml bytes limits = .ok node ↔
      BmlNode.decodeWithLimits limits.toBml (.between [] bytes) = (.ok node.toBml, .between bytes []) := by
  have hv := (Aaa.validateLimits_eq_ok (x := ())).2 hl
  have hstart : (⟨bytes, 0⟩ : Cursor UInt8) = .between [] bytes := rfl
  have hagree := Aaa.agree_decodeNode limits (limits.maxDepth + 1) 0 0 (.between [] bytes)
  have hdepth : limits.toBml.maxDepth = limits.maxDepth := rfl
  unfold decodeBinaryXml BmlNode.decodeWithLimits
  simp only [hv, hstart, hdepth, Checks.bind_eq_ok, Checks.ensure_eq_ok, bind_eq_ok]
  constructor
  · rintro ⟨-, -, -, -, p, hp, -, hrest, h⟩
    cases h
    rcases hd : Aaa.decodeNode limits (limits.maxDepth + 1) 0 0 (.between [] bytes) with ⟨r, c⟩
    rw [hd] at hp hrest
    simp only at hp hrest
    subst hp
    obtain ⟨q, ⟨hq, hq'⟩, hbml⟩ := hagree.1 p c hd
    obtain ⟨out, suffix, happ, -, hc⟩ :=
      (Bml.reads_decodeNode limits.toBml _ 0 0 (by rw [hdepth]; omega) [] bytes q c).1 hbml
    subst hc
    -- nothing is left, so the reader stands at the end
    rw [Cursor.remaining_between] at hrest
    have hsuffix : suffix = [] := List.length_eq_zero_iff.1 hrest
    subst hsuffix
    rw [List.append_nil] at happ
    subst happ
    exact ⟨q, _, hbml, by rw [hq]; rfl⟩
  · rintro ⟨q, c, hbml, h⟩
    obtain ⟨hq, rfl⟩ := pure_eq_ok.1 h
    obtain ⟨p, ⟨hp, hp'⟩, hd⟩ := hagree.2 q _ hbml
    have hnode : p.1 = node := toBml_bijective.1 (hp.trans hq.symm)
    refine ⟨(), trivial, (), by omega, p, by rw [hd], (), ?_, by rw [hnode]; rfl⟩
    rw [hd, Cursor.remaining_between]
    rfl

/-- A tree is encoded to bytes exactly when the BML codec encodes it to them and they are not too many. -/
theorem encodeBinaryXml_eq_ok {node : AaaNode} {limits : AaaLimits} {out : List UInt8} (hl : limits.Nonzero) :
    node.encodeBinaryXml limits = .ok out ↔
      node.toBml.encodeWithLimits limits.toBml [] = (.ok ⟨⟩, out) ∧ out.length ≤ limits.maxPlaintextBytes := by
  have hv := (Aaa.validateLimits_eq_ok (x := ())).2 hl
  have hagree := Aaa.agree_encodeNode limits node 0 0 []
  unfold encodeBinaryXml BmlNode.encodeWithLimits
  simp only [hv, Checks.bind_eq_ok, Checks.ensure_eq_ok, bind_eq_ok]
  constructor
  · rintro ⟨-, -, n, hn, -, hlen, h⟩
    cases h
    rcases he : Aaa.encodeNode limits node 0 0 [] with ⟨r, output⟩
    rw [he] at hn hlen
    simp only at hn hlen ⊢
    subst hn
    obtain ⟨_, rfl, hbml⟩ := hagree.1 n output he
    exact ⟨⟨n, _, hbml, rfl⟩, by omega⟩
  · rintro ⟨⟨n, _, hbml, h⟩, hlen⟩
    obtain ⟨-, rfl⟩ := pure_eq_ok.1 h
    obtain ⟨_, rfl, he⟩ := hagree.2 n _ hbml
    refine ⟨(), trivial, _, by rw [he], (), ?_, ?_⟩
    · rw [he]
      simp only
      omega
    · rw [he]
      rfl

/-- A tree is decoded from the bytes it was encoded to. -/
theorem decodeBinaryXml_encodeBinaryXml {node : AaaNode} {limits : AaaLimits} {out : List UInt8}
    (h : node.encodeBinaryXml limits = .ok out) : decodeBinaryXml out limits = .ok node := by
  have hl : limits.Nonzero := by
    obtain ⟨_, hv, -⟩ := Checks.bind_eq_ok.1 h
    exact Aaa.validateLimits_eq_ok.1 hv
  obtain ⟨hbml, hlen⟩ := (encodeBinaryXml_eq_ok hl).1 h
  rw [decodeBinaryXml_eq_ok hl hlen]
  obtain ⟨out', hout, hdec⟩ := (BmlNode.reads_decodeWithLimits limits.toBml).of_writes
    (BmlNode.writes_encodeWithLimits node.toBml limits.toBml) (fun _ h => h) hbml
  rw [List.nil_append] at hout
  subst hout
  simpa using hdec [] []

end AaaNode

/-! ## Documents -/

namespace Aaa

/-- A number that is not negative is read exactly from its bytes. -/
theorem reads_nonnegativeI32 (context : String) :
    Reads (nonnegativeI32 context) (spelled (· < 2 ^ 31) spellCount) := by
  refine (((reads_takeOr 4 _).bind fun l => reads_pure (toI32 l)).bind fun i =>
    reads_ofExcept _).congr ?_
  intro n out
  constructor
  · rintro ⟨i, o₁, o₂, ⟨l, o₃, o₄, ⟨hl, rfl⟩, ⟨rfl, rfl⟩, rfl⟩, ⟨hn, rfl⟩, rfl⟩
    obtain ⟨-, hlt, ho⟩ := PacketAux.count_iff.1 ⟨⟨hl, rfl⟩, hn⟩
    exact ⟨hlt, by simpa using ho⟩
  · rintro ⟨hlt, rfl⟩
    obtain ⟨⟨hl, hi⟩, hn⟩ := (PacketAux.count_iff (e := AaaError.negativeValue context n)).2 ⟨rfl, hlt, rfl⟩
    exact ⟨_, spellCount n, [], ⟨_, _, [], ⟨hl, rfl⟩, ⟨hi, rfl⟩, by simp⟩, ⟨hn, rfl⟩, by simp⟩

/-- A byte is read as itself. -/
theorem reads_u8 (context : String) : Reads (u8 context) (fun b out => out = [b]) := by
  refine ((reads_takeOr 1 _).bind fun l => reads_pure (l.getD 0 0)).congr ?_
  intro b out
  constructor
  · rintro ⟨l, o₁, o₂, ⟨hl, rfl⟩, ⟨rfl, rfl⟩, rfl⟩
    obtain ⟨x, rfl⟩ := List.length_eq_one_iff.1 hl
    rfl
  · rintro rfl
    exact ⟨[b], [b], [], ⟨rfl, rfl⟩, ⟨rfl, rfl⟩, rfl⟩

/-- A word is read exactly from its bytes. -/
theorem reads_u32 (context : String) : Reads (u32 context) (fun w out => out = ofU32 w) := by
  refine ((reads_takeOr 4 _).bind fun l => reads_pure (toU32 l)).congr ?_
  intro w out
  constructor
  · rintro ⟨l, o₁, o₂, ⟨hl, rfl⟩, ⟨rfl, rfl⟩, rfl⟩
    rw [ofU32_toU32 hl, List.append_nil]
  · rintro rfl
    exact ⟨_, _, [], ⟨length_ofU32 w, rfl⟩, ⟨(toU32_ofU32 w).symm, rfl⟩, by simp⟩

/-- A count is written as its bytes, when it is a signed 32-bit number. -/
theorem writes_pushI32 (value : Nat) :
    Writes (pushI32 value) (fun _ out => value < 2 ^ 31 ∧ out = spellCount value) := by
  refine ((writes_ofExcept _).bind fun i => writes_append (ofI32 i)).congr ?_
  intro x out
  constructor
  · rintro ⟨i, o₁, o₂, ⟨hi, rfl⟩, rfl, rfl⟩
    rw [Checks.orElse_eq_ok, Checked.toI32_eq_some] at hi
    obtain ⟨rfl, hlt⟩ := hi
    exact ⟨hlt, by simp [spellCount, ofI32_natCast hlt]⟩
  · rintro ⟨hlt, rfl⟩
    refine ⟨(value : Int), [], _, ⟨?_, rfl⟩, rfl, ?_⟩
    · rw [Checks.orElse_eq_ok, Checked.toI32_eq_some]
      exact ⟨rfl, hlt⟩
    · simp [spellCount, ofI32_natCast hlt]

/-- The payload of a compressed and unencrypted file. -/
def payloadOf (plaintext compressed : List UInt8) : List UInt8 :=
  [krDataMagic] ++ ([krDataCompressed] ++
    (ofU32 (Legacy.adler32 plaintext) ++ (spellCount plaintext.length ++ compressed)))

/-- A file is written as the length of its payload and the payload. -/
theorem writes_pushFile (payloadLength : Nat) (plaintext compressed : List UInt8) :
    Writes (AaaDocument.pushFile payloadLength plaintext compressed) (fun _ out =>
      payloadLength < 2 ^ 31 ∧ plaintext.length < 2 ^ 31 ∧ out = spellCount payloadLength ++ payloadOf plaintext compressed) := by
  refine ((writes_pushI32 payloadLength).bind fun _ => (writes_append [krDataMagic]).bind fun _ =>
    (writes_append [krDataCompressed]).bind fun _ =>
    (writes_append (ofU32 (Legacy.adler32 plaintext))).bind fun _ =>
    (writes_pushI32 plaintext.length).bind fun _ => writes_append compressed).congr ?_
  intro x out
  constructor
  · rintro ⟨-, o₁, o₂, ⟨hp, rfl⟩, ⟨-, o₃, o₄, rfl, ⟨-, o₅, o₆, rfl, ⟨-, o₇, o₈, rfl, ⟨-, o₉, o₁₀, ⟨hl, rfl⟩, rfl, rfl⟩, rfl⟩, rfl⟩,
      rfl⟩, rfl⟩
    exact ⟨hp, hl, rfl⟩
  · rintro ⟨hp, hl, rfl⟩
    exact ⟨⟨⟩, _, _, ⟨hp, rfl⟩, ⟨⟨⟩, _, _, rfl, ⟨⟨⟩, _, _, rfl, ⟨⟨⟩, _, _, rfl, ⟨⟨⟩, _, _, ⟨hl, rfl⟩, rfl, rfl⟩, rfl⟩, rfl⟩,
      rfl⟩, rfl⟩

/-- The payload of a file is read back from behind its length. -/
theorem readPayload_eq {payload : List UInt8} (h : payload.length < 2 ^ 31) :
    (readPayload (.between [] (spellCount payload.length ++ payload))).1 = .ok payload := by
  have h1 : nonnegativeI32 "KRData payload length" (.between [] (spellCount payload.length ++ payload)) =
      (.ok payload.length, .between (spellCount payload.length) payload) :=
    (reads_nonnegativeI32 _ [] _ _ _).2 ⟨spellCount payload.length, payload, rfl, ⟨h, rfl⟩, rfl⟩
  have h2 : take payload.length "KRData payload" (.between (spellCount payload.length) payload) =
      (.ok payload, .between (spellCount payload.length ++ payload) []) :=
    (reads_takeOr _ _ _ _ _ _).2 ⟨payload, [], by simp, ⟨rfl, rfl⟩, rfl⟩
  have hread : readPayload (.between [] (spellCount payload.length ++ payload)) =
      (.ok payload, .between (spellCount payload.length ++ payload) []) := by
    refine bind_eq_ok.2 ⟨_, _, h1, bind_eq_ok.2 ⟨_, _, rfl, bind_eq_ok.2 ⟨⟨⟩, _, ?_, h2⟩⟩⟩
    rw [require_eq_ok, Cursor.remaining_between]
    exact ⟨rfl, rfl⟩
  rw [hread]

/-- The parts of KRData are read back from a payload. -/
theorem readKrData_eq {plaintext : List UInt8} (compressed : List UInt8) (h : plaintext.length < 2 ^ 31) :
    (readKrData (.between [] (payloadOf plaintext compressed))).1 =
      .ok ⟨Legacy.adler32 plaintext, none, some plaintext.length, compressed⟩ := by
  have h1 := fun before => (reads_u8 "KRData magic" before (payloadOf plaintext compressed) krDataMagic _).2
    ⟨_, _, rfl, rfl, rfl⟩
  have h2 := fun before => (reads_u8 "KRData mode" before _ krDataCompressed _).2
    ⟨_, ofU32 (Legacy.adler32 plaintext) ++ (spellCount plaintext.length ++ compressed), rfl, rfl, rfl⟩
  have h3 := fun before => (reads_u32 "KRData checksum" before _ (Legacy.adler32 plaintext) _).2
    ⟨_, spellCount plaintext.length ++ compressed, rfl, rfl, rfl⟩
  have h4 := fun before => (reads_nonnegativeI32 "KRData plaintext length" before _ plaintext.length _).2
    ⟨_, compressed, rfl, ⟨h, rfl⟩, rfl⟩
  have h5 := fun before => (reads_takeOr compressed.length (fun reader : Cursor UInt8 =>
    AaaError.truncated "KRData body" compressed.length (reader.bytes.length - reader.offset)) before compressed
    compressed _).2 ⟨compressed, [], by simp, ⟨rfl, rfl⟩, rfl⟩
  have hmode : krDataCompressed &&& ~~~(krDataCompressed ||| krDataEncrypted) = 0 := by decide
  have hread : readKrData (.between [] (payloadOf plaintext compressed)) =
      (.ok ⟨Legacy.adler32 plaintext, none, some plaintext.length, compressed⟩,
        .between (payloadOf plaintext compressed) []) := by
    refine bind_eq_ok.2 ⟨_, _, h1 [], bind_eq_ok.2 ⟨⟨⟩, _, require_eq_ok.2 ⟨rfl, rfl⟩,
      bind_eq_ok.2 ⟨_, _, h2 _, bind_eq_ok.2 ⟨⟨⟩, _, require_eq_ok.2 ⟨hmode, rfl⟩, bind_eq_ok.2 ⟨_, _, h3 _,
      bind_eq_ok.2 ⟨none, _, rfl, bind_eq_ok.2 ⟨some plaintext.length, _, bind_eq_ok.2 ⟨_, _, h4 _, rfl⟩,
      bind_eq_ok.2 ⟨_, _, rfl, bind_eq_ok.2 ⟨compressed, _, ?_, rfl⟩⟩⟩⟩⟩⟩⟩⟩⟩
    rw [Cursor.remaining_between]
    refine (h5 _).trans ?_
    simp [payloadOf]
  rw [hread]

end Aaa

namespace AaaDocument

/-- A document is decoded from the file it was encoded to, when decompression undoes compression. -/
theorem decode_encode {zlib : Zlib} (hz : zlib.Inverts) {document : AaaDocument} {limits : AaaLimits} {bytes : List UInt8}
    (h : document.encode zlib limits = .ok bytes) : decode zlib bytes limits = .ok document := by
  unfold encode at h
  simp only [Checks.bind_eq_ok, Checks.ensure_eq_ok, Checks.orElse_eq_ok, Checked.add_eq_some] at h
  obtain ⟨⟨⟩, hv, plaintext, hplain, compressed, hcompressed, payloadLength, ⟨hpayload, -⟩, fileLength, ⟨hfile, -⟩, -, hmax,
    pushed, hpush, hbytes⟩ := h
  have hstream : zlib.compress plaintext = .ok compressed := by
    cases hc : zlib.compress plaintext with
    | error e => simp [hc, Checks.mapError_error] at hcompressed
    | ok stream => simpa [hc, Checks.mapError_ok] using hcompressed
  rcases ho : pushFile payloadLength plaintext compressed [] with ⟨r, output⟩
  rw [ho] at hpush hbytes
  simp only at hpush hbytes
  subst hpush
  cases hbytes
  obtain ⟨out, ⟨hlt, hplt, rfl⟩, hout⟩ := (Aaa.writes_pushFile payloadLength plaintext compressed _ _ _).1 ho
  rw [List.nil_append] at hout
  have hlen : (Aaa.payloadOf plaintext compressed).length = payloadLength := by
    have hc : (spellCount plaintext.length).length = 4 := length_bytes ..
    simp only [Aaa.payloadOf, List.length_append, List.length_singleton, length_ofU32, hc]
    omega
  have hall : bytes.length = fileLength := by
    have hc : (spellCount payloadLength).length = 4 := length_bytes ..
    rw [hout, List.length_append, hc, hlen]
    omega
  have hl : limits.Nonzero := Aaa.validateLimits_eq_ok.1 hv
  have hplainLen := ((AaaNode.encodeBinaryXml_eq_ok hl).1 hplain).2
  -- the plaintext comes back out of the payload
  have hkr : Aaa.decodeKrData zlib (Aaa.payloadOf plaintext compressed) limits = .ok plaintext := by
    have hread := Aaa.readKrData_eq compressed hplt
    have hinflate := hz plaintext compressed (plaintext.length + 1) hstream (by omega)
    have hopen : Aaa.openStored zlib compressed (some plaintext.length) limits = .ok plaintext := by
      unfold Aaa.openStored
      simp only [Checks.bind_eq_ok, Checks.ensure_eq_ok, hinflate, Checks.mapError_ok]
      exact ⟨(), by omega, (plaintext, compressed.length), rfl, (), rfl, (), rfl, rfl⟩
    unfold Aaa.decodeKrData
    simp only [Checks.bind_eq_ok, Checks.ensure_eq_ok]
    exact ⟨_, hread, plaintext, hopen, (), rfl, rfl⟩
  unfold decode
  simp only [Checks.bind_eq_ok, Checks.ensure_eq_ok]
  refine ⟨(), hv, (), by omega, _, ?_, plaintext, hkr, _, AaaNode.decodeBinaryXml_encodeBinaryXml hplain, rfl⟩
  rw [hout, ← hlen]
  exact Aaa.readPayload_eq (by omega)

end AaaDocument

namespace AaaNode

/-- The two codecs of binary XML agree, for corresponding limits. On bytes within the plaintext limit, one decodes a tree exactly
when the other decodes the corresponding tree and consumes them all; one encodes a tree to bytes exactly when the other does and
they are within the plaintext limit; and trees correspond one to one. A document around a tree decodes to what was encoded. -/
theorem codecs_agree (limits : AaaLimits) (hl : limits.Nonzero) :
    Function.Bijective toBml ∧
    (∀ (bytes : List UInt8) (node : AaaNode), bytes.length ≤ limits.maxPlaintextBytes →
      (decodeBinaryXml bytes limits = .ok node ↔
        BmlNode.decodeWithLimits limits.toBml (.between [] bytes) = (.ok node.toBml, .between bytes []))) ∧
    (∀ (node : AaaNode) (out : List UInt8), node.encodeBinaryXml limits = .ok out ↔
      node.toBml.encodeWithLimits limits.toBml [] = (.ok ⟨⟩, out) ∧ out.length ≤ limits.maxPlaintextBytes) ∧
    (∀ (zlib : Zlib), zlib.Inverts → ∀ (document : AaaDocument) (bytes : List UInt8),
      document.encode zlib limits = .ok bytes → AaaDocument.decode zlib bytes limits = .ok document) :=
  ⟨toBml_bijective, fun _ _ hb => decodeBinaryXml_eq_ok hl hb, fun _ _ => encodeBinaryXml_eq_ok hl,
    fun _ hz _ _ h => AaaDocument.decode_encode hz h⟩

namespace CodecAux

/-- A node with a text, an attribute and a child. -/
def index : AaaDocument := ⟨⟨"a", "b", [("k", "v")], [⟨"c", "", [], []⟩]⟩⟩

/-- The bytes of its tree. -/
def indexPlaintext : List UInt8 :=
  [1, 0, 0, 0, 97, 0, 1, 0, 0, 0, 98, 0, 1, 0, 0, 0, 1, 0, 0, 0, 107, 0, 1, 0, 0, 0, 118, 0, 1, 0, 0, 0, 1, 0, 0, 0, 99, 0, 0, 0, 0, 0,
    0, 0, 0, 0, 0, 0, 0, 0]

/-- The stream that zlib compresses them to. -/
def indexStream : List UInt8 :=
  [120, 156, 99, 100, 96, 96, 72, 100, 96, 4, 146, 73, 96, 18, 132, 179, 193, 100, 25, 156, 159, 204, 128, 12, 0, 62, 222, 2, 15]

/-- The compression library, as far as these bytes go. -/
def indexZlib : Zlib := .ofTable [(indexPlaintext, indexStream)]

end CodecAux

/-- An index: both codecs read its tree, both write it, and its file is decoded again. -/
theorem codecs_agree_index :
    decodeBinaryXml CodecAux.indexPlaintext .default = .ok CodecAux.index.root ∧
    CodecAux.index.root.encodeBinaryXml .default = .ok CodecAux.indexPlaintext ∧
    ∃ bytes, CodecAux.index.encode CodecAux.indexZlib .default = .ok bytes ∧
      AaaDocument.decode CodecAux.indexZlib bytes .default = .ok CodecAux.index := by
  have hl : AaaLimits.default.Nonzero := by simp [AaaLimits.Nonzero, AaaLimits.default]
  obtain ⟨-, hdecode, hencode, hdocument⟩ := codecs_agree .default hl
  refine ⟨(hdecode _ _ (by decide)).2 (by rfl), (hencode _ _).2 ⟨by rfl, by decide⟩, ?_⟩
  have hinverts : CodecAux.indexZlib.Inverts := Zlib.inverts_ofTable (by decide)
  cases hfile : CodecAux.index.encode CodecAux.indexZlib .default with
  | ok bytes => exact ⟨bytes, rfl, hdocument _ hinverts _ _ hfile⟩
  | error e =>
    have hok : (CodecAux.index.encode CodecAux.indexZlib .default).isOk = true := by rfl
    rw [hfile] at hok
    cases hok

end AaaNode

end P5136
