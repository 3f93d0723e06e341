import P5136.Core.Bml

/-!
# The BML codec is exact

The reader and the writer of trees follow one format: a tree that fits the limits has one spelling, the writer appends it and
nothing else, and the reader accepts it and nothing else. So each undoes the other.
-/

namespace P5136

namespace Bml

/-! ## The parts of a node -/

/-- A node is admitted when its depth and the number of nodes with it are within the limits. -/
theorem checkNodeAdmission_eq_ok {limits : BmlLimits} {depth nodeCount m : Nat} :
    checkNodeAdmission limits depth nodeCount = .ok m ↔
      depth ≤ limits.maxDepth ∧ nodeCount + 1 ≤ limits.maxNodes ∧ nodeCount + 1 < 2 ^ 64 ∧ m = nodeCount + 1 := by
  unfold checkNodeAdmission Checked.add
  by_cases hd : depth > limits.maxDepth
  · simp only [if_pos hd]
    constructor
    · intro h
      cases h
    · rintro ⟨h, -⟩
      omega
  · by_cases ho : nodeCount + 1 < 2 ^ 64
    · by_cases hm : nodeCount + 1 > limits.maxNodes
      · simp only [if_neg hd, if_pos ho, if_pos hm]
        constructor
        · intro h
          cases h
        · rintro ⟨-, h, -⟩
          omega
      · simp only [if_neg hd, if_pos ho, if_neg hm, Except.ok.injEq]
        omega
    · simp only [if_neg hd, if_neg ho]
      constructor
      · intro h
        cases h
      · rintro ⟨-, -, h, -⟩
        exact absurd h ho

/-- A count is read exactly from its bytes. -/
theorem reads_readCount (kind : String) (maximum : Nat) :
    Format.Reads (readCount kind maximum) (Format.spelled (CountFits maximum) spellCount) := by
  refine ((PacketReader.reads_readI32.mapError _).bind fun i => (Format.reads_ofExcept _).bind fun n =>
    (Format.reads_require _ _).bind fun _ => Format.reads_pure n).congr ?_
  intro n out
  constructor
  · rintro ⟨i, o₁, o₂, hi, ⟨m, o₃, o₄, ⟨hm, rfl⟩, ⟨-, o₅, o₆, ⟨hle, rfl⟩, ⟨rfl, rfl⟩, rfl⟩, rfl⟩, rfl⟩
    obtain ⟨-, hlt, rfl⟩ := PacketAux.count_iff.1 ⟨hi, hm⟩
    exact ⟨⟨by omega, hlt⟩, by simp⟩
  · rintro ⟨⟨hle, hlt⟩, rfl⟩
    obtain ⟨hi, hn⟩ := (PacketAux.count_iff (e := BmlError.invalidCount kind n maximum)).2 ⟨rfl, hlt, rfl⟩
    exact ⟨_, _, _, hi, ⟨_, [], _, ⟨hn, rfl⟩, ⟨⟨⟩, [], _, ⟨by omega, rfl⟩, ⟨rfl, rfl⟩, rfl⟩, rfl⟩, by simp⟩

/-- A string of a tree is read exactly from its bytes. -/
theorem reads_readString (limits : BmlLimits) :
    Format.Reads (readString limits) (Format.spelled (StringFits limits.maxStringCodeUnits) spellString) :=
  PacketReader.reads_readUtf16Bounded.mapError _

/-- An attribute is read exactly from its bytes. -/
theorem reads_readAttribute (limits : BmlLimits) :
    Format.Reads (readAttribute limits) (Format.spelled (BmlNode.AttributeFits limits) BmlNode.spellAttribute) := by
  refine ((reads_readString limits).bind fun a => (reads_readString limits).bind fun b => Format.reads_pure (a, b)).congr ?_
  rintro ⟨x, y⟩ out
  constructor
  · rintro ⟨a, o₁, o₂, ⟨ha, rfl⟩, ⟨b, o₃, o₄, ⟨hb, rfl⟩, ⟨hp, rfl⟩, rfl⟩, rfl⟩
    cases hp
    exact ⟨⟨ha, hb⟩, by simp [BmlNode.spellAttribute]⟩
  · rintro ⟨⟨hx, hy⟩, rfl⟩
    exact ⟨x, _, _, ⟨hx, rfl⟩, ⟨y, _, [], ⟨hy, rfl⟩, ⟨rfl, rfl⟩, rfl⟩, by simp [BmlNode.spellAttribute]⟩

/-- A count is written exactly as its bytes, when it fits. -/
theorem writes_writeCount (kind : String) (count maximum : Nat) :
    Format.Writes (writeCount kind count maximum) (fun _ out => CountFits maximum count ∧ out = spellCount count) := by
  refine ((Format.writes_require _ _).bind fun _ => (Format.writes_ofExcept _).bind fun i =>
    Format.writes_append (LittleEndian.ofI32 i)).congr ?_
  intro x out
  constructor
  · rintro ⟨-, o₁, o₂, ⟨hle, rfl⟩, ⟨i, o₃, o₄, ⟨hi, rfl⟩, rfl, rfl⟩, rfl⟩
    rw [Checks.orElse_eq_ok, Checked.toI32_eq_some] at hi
    obtain ⟨rfl, hlt⟩ := hi
    exact ⟨⟨by omega, hlt⟩, by simp [spellCount, LittleEndian.ofI32_natCast hlt]⟩
  · rintro ⟨⟨hle, hlt⟩, rfl⟩
    refine ⟨⟨⟩, [], _, ⟨by omega, rfl⟩, ⟨(count : Int), [], _, ⟨?_, rfl⟩, rfl, rfl⟩, ?_⟩
    · rw [Checks.orElse_eq_ok, Checked.toI32_eq_some]
      exact ⟨rfl, hlt⟩
    · simp [spellCount, LittleEndian.ofI32_natCast hlt]

/-- A string of a tree is written exactly as its bytes, when it fits. -/
theorem writes_writeBoundedString (value field : String) (limits : BmlLimits) :
    Format.Writes (writeBoundedString value field limits)
      (fun _ out => StringFits limits.maxStringCodeUnits value ∧ out = spellString value) := by
  refine ((Format.writes_require _ _).bind fun _ => (PacketWriter.writes_writeUtf16 value).mapError _).congr ?_
  intro x out
  constructor
  · rintro ⟨-, o₁, o₂, ⟨hle, rfl⟩, ⟨hlt, rfl⟩, rfl⟩
    exact ⟨⟨by omega, hlt⟩, by simp⟩
  · rintro ⟨⟨hle, hlt⟩, rfl⟩
    exact ⟨⟨⟩, [], _, ⟨by omega, rfl⟩, ⟨hlt, rfl⟩, by simp⟩

/-- An attribute is written exactly as its bytes, when it fits. -/
theorem writes_writeAttribute (limits : BmlLimits) (pair : String × String) :
    Format.Writes (writeAttribute limits pair)
      (fun _ out => BmlNode.AttributeFits limits pair ∧ out = BmlNode.spellAttribute pair) := by
  refine ((writes_writeBoundedString pair.1 "attribute name" limits).bind fun _ =>
    writes_writeBoundedString pair.2 "attribute value" limits).congr ?_
  intro x out
  constructor
  · rintro ⟨-, o₁, o₂, ⟨h1, rfl⟩, ⟨h2, rfl⟩, rfl⟩
    exact ⟨⟨h1, h2⟩, rfl⟩
  · rintro ⟨⟨h1, h2⟩, rfl⟩
    exact ⟨⟨⟩, _, _, ⟨h1, rfl⟩, ⟨h2, rfl⟩, rfl⟩

end Bml

/-! ## Trees -/

namespace BmlNode

/-- The bytes of trees in a row are the bytes of each. -/
theorem spellAll_eq (children : List BmlNode) : spellAll children = children.flatMap spell := by
  induction children with
  | nil => simp [spellAll]
  | cons child children ih => simp [spellAll, ih]

/-- Counting on through trees in a row adds their number of nodes. -/
theorem foldl_nodes (children : List BmlNode) (k : Nat) :
    children.foldl (fun k child => k + nodes child) k = k + nodesAll children := by
  induction children generalizing k with
  | nil => simp [nodesAll]
  | cons child children ih =>
    rw [List.foldl_cons, ih, nodesAll]
    omega

/-- Trees fit in a row when each fits after the ones before it. -/
theorem fitAll_iff (limits : BmlLimits) (depth : Nat) (children : List BmlNode) (k : Nat) :
    FitAll limits depth k children ↔ Format.AllFrom (Fits limits depth) (fun k child => k + nodes child) k children := by
  induction children generalizing k with
  | nil => simp [FitAll, Format.AllFrom]
  | cons child children ih => simp [FitAll, Format.AllFrom, ih]

/-- The format of one node: a tree that fits, the number of nodes with it, and its bytes. -/
def NodeFormat (limits : BmlLimits) (depth nodeCount : Nat) : Format (BmlNode × Nat) UInt8 :=
  fun p out => Fits limits depth nodeCount p.1 ∧ p.2 = nodeCount + nodes p.1 ∧ out = spell p.1

end BmlNode

namespace Bml

/-- A node is read exactly from its bytes, on every level the depth limit leaves. -/
theorem reads_decodeNode (limits : BmlLimits) (levels depth nodeCount : Nat) (h : depth + levels = limits.maxDepth + 1) :
    Format.Reads (decodeNode limits levels depth nodeCount) (BmlNode.NodeFormat limits depth nodeCount) := by
  induction levels generalizing depth nodeCount with
  | zero =>
    refine (Format.reads_fail _).congr ?_
    rintro ⟨⟨name, value, attributes, children⟩, m⟩ out
    constructor
    · exact False.elim
    · rintro ⟨hfit, -⟩
      unfold BmlNode.Fits at hfit
      have := hfit.1
      omega
  | succ levels ih =>
    have hchildren : ∀ count k, Format.Reads (Format.times (decodeNode limits levels (depth + 1)) count k) (fun p out =>
        p.1.length = count ∧ Format.AllFrom (BmlNode.Fits limits (depth + 1)) (fun k child => k + BmlNode.nodes child) k p.1 ∧
          p.2 = p.1.foldl (fun k child => k + BmlNode.nodes child) k ∧ out = p.1.flatMap BmlNode.spell) :=
      fun count k => Format.reads_times (fun k => ih (depth + 1) k (by omega)) count k
    refine ((Format.reads_ofExcept _).bind fun n => (reads_readString limits).bind fun name =>
      (reads_readString limits).bind fun value => (reads_readCount _ _).bind fun attributeCount =>
      (Format.reads_collect (reads_readAttribute limits) attributeCount).bind fun attributes =>
      (reads_readCount _ _).bind fun childCount => (hchildren childCount n).bind fun p =>
      Format.reads_pure (BmlNode.mk name value attributes p.1, p.2)).congr ?_
    rintro ⟨⟨name, value, attributes, children⟩, m⟩ out
    constructor
    · rintro ⟨n, o₁, o₂, ⟨hn, rfl⟩, ⟨name', o₃, o₄, ⟨hname, rfl⟩, ⟨value', o₅, o₆, ⟨hvalue, rfl⟩, ⟨count, o₇, o₈, ⟨hcount, rfl⟩,
        ⟨attributes', o₉, o₁₀, ⟨hlen, hattributes, rfl⟩, ⟨count', o₁₁, o₁₂, ⟨hcount', rfl⟩, ⟨⟨children', m'⟩, o₁₃, o₁₄,
        ⟨hlen', hall, hm, rfl⟩, ⟨hp, rfl⟩, rfl⟩, rfl⟩, rfl⟩, rfl⟩, rfl⟩, rfl⟩, rfl⟩
      obtain ⟨hdepth, hnodes, hlt, rfl⟩ := checkNodeAdmission_eq_ok.1 hn
      simp only [Prod.mk.injEq, BmlNode.mk.injEq] at hp
      obtain ⟨⟨rfl, rfl, rfl, rfl⟩, rfl⟩ := hp
      simp only at hlen' hall hm
      subst hlen
      subst hlen'
      refine ⟨?_, ?_, ?_⟩
      · unfold BmlNode.Fits
        exact ⟨hdepth, hnodes, hlt, hname, hvalue, hcount, hattributes, hcount', (BmlNode.fitAll_iff ..).2 hall⟩
      · rw [hm, BmlNode.foldl_nodes, BmlNode.nodes]
        omega
      · simp [BmlNode.spell, BmlNode.spellAll_eq]
    · rintro ⟨hfit, hm, ho⟩
      unfold BmlNode.Fits at hfit
      obtain ⟨hdepth, hnodes, hlt, hname, hvalue, hcount, hattributes, hcount', hall⟩ := hfit
      have hn := checkNodeAdmission_eq_ok.2 ⟨hdepth, hnodes, hlt, rfl⟩
      refine ⟨_, [], _, ⟨hn, rfl⟩, ⟨name, _, _, ⟨hname, rfl⟩, ⟨value, _, _, ⟨hvalue, rfl⟩, ⟨attributes.length, _, _,
        ⟨hcount, rfl⟩, ⟨attributes, _, _, ⟨rfl, hattributes, rfl⟩, ⟨children.length, _, _, ⟨hcount', rfl⟩, ⟨(children, m),
        _, [], ⟨rfl, (BmlNode.fitAll_iff ..).1 hall, ?_, rfl⟩, ⟨rfl, rfl⟩, rfl⟩, rfl⟩, rfl⟩, rfl⟩, rfl⟩, rfl⟩, ?_⟩
      · simp only at hm ⊢
        rw [hm, BmlNode.foldl_nodes, BmlNode.nodes]
        omega
      · simp only at ho
        rw [ho]
        simp [BmlNode.spell, BmlNode.spellAll_eq]

mutual

/-- A node is written exactly as its bytes, when it fits. -/
theorem writes_encodeNode (limits : BmlLimits) : ∀ (node : BmlNode) (depth nodeCount : Nat),
    Format.Writes (encodeNode limits node depth nodeCount)
      (fun m out => BmlNode.NodeFormat limits depth nodeCount (node, m) out)
  | ⟨name, value, attributes, children⟩, depth, nodeCount => by
    have hchildren := writes_encodeChildren limits children (depth + 1)
    unfold encodeNode
    refine ((Format.writes_ofExcept _).bind fun n => (writes_writeBoundedString name _ limits).bind fun _ =>
      (writes_writeBoundedString value _ limits).bind fun _ => (writes_writeCount _ attributes.length _).bind fun _ =>
      (Format.writes_writeAll (writes_writeAttribute limits) attributes).bind fun _ =>
      (writes_writeCount _ children.length _).bind fun _ => hchildren n).congr ?_
    intro m out
    constructor
    · rintro ⟨n, o₁, o₂, ⟨hn, rfl⟩, ⟨-, o₃, o₄, ⟨hname, rfl⟩, ⟨-, o₅, o₆, ⟨hvalue, rfl⟩, ⟨-, o₇, o₈, ⟨hcount, rfl⟩,
        ⟨-, o₉, o₁₀, ⟨hattributes, rfl⟩, ⟨-, o₁₁, o₁₂, ⟨hcount', rfl⟩, ⟨hall, rfl, rfl⟩, rfl⟩, rfl⟩, rfl⟩, rfl⟩, rfl⟩, rfl⟩
      obtain ⟨hdepth, hnodes, hlt, rfl⟩ := checkNodeAdmission_eq_ok.1 hn
      refine ⟨?_, ?_, ?_⟩
      · unfold BmlNode.Fits
        exact ⟨hdepth, hnodes, hlt, hname, hvalue, hcount, hattributes, hcount', hall⟩
      · rw [BmlNode.nodes]
        omega
      · simp [BmlNode.spell]
    · rintro ⟨hfit, hm, ho⟩
      unfold BmlNode.Fits at hfit
      obtain ⟨hdepth, hnodes, hlt, hname, hvalue, hcount, hattributes, hcount', hall⟩ := hfit
      have hn := checkNodeAdmission_eq_ok.2 ⟨hdepth, hnodes, hlt, rfl⟩
      refine ⟨_, [], _, ⟨hn, rfl⟩, ⟨⟨⟩, _, _, ⟨hname, rfl⟩, ⟨⟨⟩, _, _, ⟨hvalue, rfl⟩, ⟨⟨⟩, _, _, ⟨hcount, rfl⟩,
        ⟨⟨⟩, _, _, ⟨hattributes, rfl⟩, ⟨⟨⟩, _, _, ⟨hcount', rfl⟩, ⟨hall, ?_, rfl⟩, rfl⟩, rfl⟩, rfl⟩, rfl⟩, rfl⟩, ?_⟩
      · simp only [BmlNode.nodes] at hm
        omega
      · simp only at ho
        rw [ho]
        simp [BmlNode.spell]

/-- Nodes in a row are written exactly as their bytes, when they fit. -/
theorem writes_encodeChildren (limits : BmlLimits) : ∀ (children : List BmlNode) (depth nodeCount : Nat),
    Format.Writes (encodeChildren limits children depth nodeCount) (fun m out =>
      BmlNode.FitAll limits depth nodeCount children ∧ m = nodeCount + BmlNode.nodesAll children ∧
        out = BmlNode.spellAll children)
  | [], depth, nodeCount => by
    unfold encodeChildren
    refine (Format.writes_pure _).congr ?_
    intro m out
    simp [Format.pure, BmlNode.FitAll, BmlNode.nodesAll, BmlNode.spellAll]
  | child :: children, depth, nodeCount => by
    have hchild := writes_encodeNode limits child depth nodeCount
    have hchildren := writes_encodeChildren limits children depth
    unfold encodeChildren
    refine (hchild.bind fun n => hchildren n).congr ?_
    intro m out
    constructor
    · rintro ⟨n, o₁, o₂, ⟨hfit, hn, rfl⟩, ⟨hall, rfl, rfl⟩, rfl⟩
      simp only at hn
      subst hn
      refine ⟨?_, ?_, ?_⟩
      · unfold BmlNode.FitAll
        exact ⟨hfit, hall⟩
      · rw [BmlNode.nodesAll]
        omega
      · rw [BmlNode.spellAll]
    · rintro ⟨hfit, rfl, rfl⟩
      unfold BmlNode.FitAll at hfit
      refine ⟨_, _, _, ⟨hfit.1, rfl, rfl⟩, ⟨hfit.2, ?_, rfl⟩, ?_⟩
      · rw [BmlNode.nodesAll]
        omega
      · rw [BmlNode.spellAll]

end

end Bml

namespace BmlNode

/-- The reader of trees accepts exactly the bytes of the trees that fit. -/
theorem reads_decodeWithLimits (limits : BmlLimits) :
    Format.Reads (decodeWithLimits limits) (Format.spelled (Fits limits 0 0) spell) := by
  refine ((Bml.reads_decodeNode limits (limits.maxDepth + 1) 0 0 (by omega)).bind fun p => Format.reads_pure p.1).congr ?_
  intro node out
  constructor
  · rintro ⟨⟨node', m⟩, o₁, o₂, ⟨hfit, -, rfl⟩, ⟨rfl, rfl⟩, rfl⟩
    exact ⟨hfit, by simp⟩
  · rintro ⟨hfit, rfl⟩
    exact ⟨(node, 0 + nodes node), _, [], ⟨hfit, rfl, rfl⟩, ⟨rfl, rfl⟩, by simp⟩

/-- The writer of trees appends exactly the bytes of the trees that fit. -/
theorem writes_encodeWithLimits (node : BmlNode) (limits : BmlLimits) :
    Format.Writes (encodeWithLimits node limits) (fun _ out => Fits limits 0 0 node ∧ out = spell node) := by
  refine ((Bml.writes_encodeNode limits node 0 0).bind fun _ => Format.writes_pure PUnit.unit).congr ?_
  intro x out
  constructor
  · rintro ⟨m, o₁, o₂, ⟨hfit, -, rfl⟩, ⟨-, rfl⟩, rfl⟩
    exact ⟨hfit, by simp⟩
  · rintro ⟨hfit, rfl⟩
    exact ⟨0 + nodes node, _, [], ⟨hfit, rfl, rfl⟩, ⟨rfl, rfl⟩, by simp⟩

/-- The codec of trees is exact. What the writer appends, the reader reads back as the same tree, whatever follows, and stops
behind it; and what the reader accepts, the writer reproduces byte for byte. -/
theorem codec_exact (limits : BmlLimits) :
    (∀ (node : BmlNode) (writer writer' : PacketWriter), node.encodeWithLimits limits writer = (.ok ⟨⟩, writer') →
      ∃ out, writer' = writer ++ out ∧ ∀ before suffix,
        decodeWithLimits limits (.between before (out ++ suffix)) = (.ok node, .between (before ++ out) suffix)) ∧
    (∀ (before input : List UInt8) (node : BmlNode) (reader : PacketReader),
      decodeWithLimits limits (.between before input) = (.ok node, reader) →
      ∃ out suffix, input = out ++ suffix ∧ reader = .between (before ++ out) suffix ∧
        ∀ writer, node.encodeWithLimits limits writer = (.ok ⟨⟩, writer ++ out)) := by
  constructor
  · intro node writer writer' h
    exact (reads_decodeWithLimits limits).of_writes (writes_encodeWithLimits node limits) (fun _ h => h) h
  · intro before input node reader h
    exact (writes_encodeWithLimits node limits).of_reads (reads_decodeWithLimits limits) (fun _ h => h) h

namespace CodecAux

/-- The tree of a login: a profile with the user's name. -/
def profile : BmlNode := ⟨"profile", "", [], [⟨"username", "Yany2", [], []⟩]⟩

/-- `LOGIN_PROFILE_BML`: its bytes. -/
def loginProfileBml : List UInt8 :=
  [0x07, 0x00, 0x00, 0x00, 0x70, 0x00, 0x72, 0x00, 0x6f, 0x00, 0x66, 0x00, 0x69, 0x00, 0x6c,
    0x00, 0x65, 0x00, 0x00, 0x00, 0x00, 0x00, 0x00, 0x00, 0x00, 0x00, 0x01, 0x00, 0x00, 0x00,
    0x08, 0x00, 0x00, 0x00, 0x75, 0x00, 0x73, 0x00, 0x65, 0x00, 0x72, 0x00, 0x6e, 0x00, 0x61,
    0x00, 0x6d, 0x00, 0x65, 0x00, 0x05, 0x00, 0x00, 0x00, 0x59, 0x00, 0x61, 0x00, 0x6e, 0x00,
    0x79, 0x00, 0x32, 0x00, 0x00, 0x00, 0x00, 0x00, 0x00, 0x00, 0x00, 0x00]

end CodecAux

/-- The profile of a login, with two more bytes behind it: written, read back, and written again. -/
theorem codec_exact_profile :
    decodeWithLimits .default (.between [] (CodecAux.loginProfileBml ++ [1, 2])) =
      (.ok CodecAux.profile, .between CodecAux.loginProfileBml [1, 2]) ∧
    ∃ out suffix, CodecAux.loginProfileBml ++ [1, 2] = out ++ suffix ∧
      ∀ writer, CodecAux.profile.encodeWithLimits .default writer = (.ok ⟨⟩, writer ++ out) := by
  have henc : CodecAux.profile.encodeWithLimits .default [] = (.ok ⟨⟩, CodecAux.loginProfileBml) := by decide +kernel
  obtain ⟨out, rfl, hdec⟩ := (codec_exact .default).1 CodecAux.profile [] _ henc
  have h := hdec [] [1, 2]
  obtain ⟨out', suffix, happ, -, henc'⟩ := (codec_exact .default).2 _ _ _ _ h
  exact ⟨h, out', suffix, happ, henc'⟩

end BmlNode

end P5136
