import P5136.Connector.Pin

/-!
# A PIN file is read back as it was written

What the writer appends for a part, the reader takes as that part. So a file that was encoded decodes to its document, for every
document that can be decoded at all, and a patched file decodes to the patched document.
-/

namespace P5136.Connector

open WireWriter Checks WireReader

/-! ## Documents that can be decoded -/

namespace PinDocument

/-- What is true of every decoded document and of every patched one. -/
structure Encodable (document : PinDocument) : Prop where
  /-- The trees of the methods name no attribute twice. -/
  methodKeys : ∀ method ∈ document.authMethods,
    (∀ tree ∈ method.accountConfig, KeysDistinct tree) ∧ ∀ tree ∈ method.extraConfig, KeysDistinct tree
  /-- Nor do the trees of the slots. -/
  storageKeys : ∀ tree ∈ document.storageConfig, KeysDistinct tree
  extraKeys : ∀ tree ∈ document.extraConfig, KeysDistinct tree
  /-- The block has its key exactly with the flag. -/
  keyed : EncodedBlock.WellKeyed document.encoding
  /-- What version 1 does not store stands as its reader sets it. -/
  legacy : document.header.objectVersion = 1 →
    document.header.loginType = 2 ∧ document.header.aesKey = "" ∧ document.header.patchUrl = "" ∧
      ∃ loginServers, document.authMethods = [⟨1, "Default", none, loginServers, none⟩]

/-- What a file keeps of a document: version 1 has no slots. -/
def kept (document : PinDocument) : PinDocument :=
  if document.header.objectVersion = 1 then { document with storageConfig := none, extraConfig := none } else document

/-- The parts of a document that stand in its payload before the trailing bytes. -/
def payload (document : PinDocument) : Pin.Payload :=
  ⟨document.header, document.authMethods, document.storageConfig, document.extraConfig⟩

end PinDocument

namespace Pin

/-! ## Parts -/

theorem writeEndpoint_for (maximum : Nat) (endpoint : SocketAddrV4) :
    WrittenFor (writeEndpoint maximum endpoint) readEndpoint endpoint := by
  obtain ⟨⟨a, b, c, d⟩, port⟩ := endpoint
  refine ((appends_writeBytes maximum [a, b, c, d]).bind fun _ => writeU16_for maximum port).mono ?_
  rintro x out ⟨-, o₁, o₂, rfl, hport, rfl⟩
  exact (takes_readU8 a).bind ((takes_readU8 b).bind ((takes_readU8 c).bind
    ((takes_readU8 d).bind (hport.bind_end (Takes.pure _)))))

theorem writeEndpoints_for (maximum : Nat) (endpoints : List SocketAddrV4) :
    WrittenFor (Format.writeAll (writeEndpoint maximum) endpoints) (readEndpoints endpoints.length) endpoints :=
  Cursor.appends_writeAll endpoints fun endpoint _ => writeEndpoint_for maximum endpoint

/-- The fields that every version has. -/
def common (header : PinHeader) : PinHeader := { header with loginType := 0, aesKey := "", url := "", patchUrl := "" }

theorem writeHeader_for (maximum : Nat) (header : PinHeader) :
    WrittenFor (writeHeader maximum header) readHeader (common header) := by
  refine ((writeU32_for maximum p5136PinMagic).bind fun _ =>
    (writeU8_for maximum header.objectVersion).bind fun _ =>
    (writeU16_for maximum header.localeId).bind fun _ =>
    (writeU16_for maximum header.clientLocation).bind fun _ =>
    (writeU8_for maximum header.localeType).bind fun _ =>
    (writeU8_for maximum header.unknown3).bind fun _ =>
    (writeU16_for maximum header.minorVersion).bind fun _ =>
    (writeU8_for maximum header.unknown4).bind fun _ =>
    writeU8_for maximum header.unknown5).mono ?_
  rintro x out ⟨-, o₁, p₁, h₁, ⟨-, o₂, p₂, h₂, ⟨-, o₃, p₃, h₃, ⟨-, o₄, p₄, h₄, ⟨-, o₅, p₅, h₅, ⟨-, o₆, p₆, h₆, ⟨-, o₇, p₇, h₇,
    ⟨-, o₈, p₈, h₈, h₉, rfl⟩, rfl⟩, rfl⟩, rfl⟩, rfl⟩, rfl⟩, rfl⟩, rfl⟩
  exact h₁.bind (Takes.bind_nil (Takes.require rfl) (h₂.bind (h₃.bind (h₄.bind (h₅.bind (h₆.bind (h₇.bind (h₈.bind
    (h₉.bind_end (Takes.pure _))))))))))

theorem writeAuthMethod_for (maximum : Nat) (limits : CodecLimits) (method : AuthMethod) (nodes : Nat)
    (haccount : ∀ tree ∈ method.accountConfig, KeysDistinct tree) (hextra : ∀ tree ∈ method.extraConfig, KeysDistinct tree) :
    Format.Appends (writeAuthMethod maximum limits method nodes)
      (fun nodes' out => ReadsAs (readAuthMethod limits nodes) out (method, nodes')) := by
  refine ((writeU8_for maximum method.index).bind fun _ =>
    (writeString_for maximum method.name limits).bind fun _ =>
    (BmlAux.writeOptionalBml_for maximum limits method.accountConfig nodes haccount).bind fun nodes₁ =>
    (writeCount_for maximum method.loginServers.length _ limits.maxCollectionItems).bind fun _ =>
    (writeEndpoints_for maximum method.loginServers).bind fun _ =>
    BmlAux.writeOptionalBml_for maximum limits method.extraConfig nodes₁ hextra).mono ?_
  rintro nodes' out ⟨-, o₁, p₁, h₁, ⟨-, o₂, p₂, h₂, ⟨nodes₁, o₃, p₃, h₃, ⟨-, o₄, p₄, h₄, ⟨-, o₅, p₅, h₅, h₆, rfl⟩, rfl⟩, rfl⟩,
    rfl⟩, rfl⟩
  exact h₁.bind (h₂.bind (h₃.bind (h₄.bind (h₅.bind (h₆.bind_end (Takes.pure _))))))

/-- An optional tree is not read from nothing. -/
theorem ne_nil_of_readOptionalBml {limits : CodecLimits} {nodes : Nat} {out : List UInt8} {a : Option BmlObject × Nat}
    (h : ReadsAs (readOptionalBml limits nodes) out a) : out ≠ [] := by
  rintro rfl
  obtain ⟨t, ht, -⟩ := h (.between [] []) [] ⟨[], rfl⟩
  have herror : (readOptionalBml limits nodes (.between [] [])).1 = .error (.truncated 0 1) := rfl
  rw [ht] at herror
  cases herror

/-- A slot that was written is there, whatever follows. -/
theorem readSlot_of_readOptionalBml {limits : CodecLimits} {nodes : Nat} {out : List UInt8} {a : Option BmlObject × Nat}
    (h : ReadsAs (readOptionalBml limits nodes) out a) : ReadsAs (readSlot limits nodes) out a := by
  intro s rest hs
  obtain ⟨t, ht, hpt⟩ := h s rest hs
  obtain ⟨before, rfl⟩ := hs
  have hne := ne_nil_of_readOptionalBml h
  refine ⟨t, Act.bind_eq_ok.2 ⟨_, _, Act.get_eq_ok.2 ⟨rfl, rfl⟩, ?_⟩, hpt⟩
  rw [Cursor.remaining_between, if_neg (by simp [hne])]
  exact ht

/-! ## Payloads -/

/-- Where the fields that version 1 does not store stand as its reader sets them, the others are the whole header. -/
theorem header_eq {header : PinHeader} (hlogin : header.loginType = 2) (haes : header.aesKey = "")
    (hpatch : header.patchUrl = "") : header = { common header with loginType := 2, url := header.url } := by
  cases header
  simp only at hlogin haes hpatch
  subst hlogin haes hpatch
  rfl

theorem writeLegacy_for (maximum : Nat) (limits : CodecLimits) (document : PinDocument) (h : document.Encodable)
    (hversion : document.header.objectVersion = 1) :
    WrittenFor (writeLegacy maximum limits document) (readLegacy limits (common document.header)) document.kept.payload := by
  obtain ⟨hlogin, haes, hpatch, loginServers, hmethods⟩ := h.legacy hversion
  have hkept : document.kept.payload =
      ⟨{ common document.header with loginType := 2, url := document.header.url },
        [⟨1, "Default", none, loginServers, none⟩], none, none⟩ := by
    simp only [PinDocument.kept, if_pos hversion, PinDocument.payload, hmethods]
    rw [← header_eq hlogin haes hpatch]
  have hservers : document.authMethods.flatMap (·.loginServers) = loginServers := by
    simp [hmethods]
  have hendpoints := writeEndpoints_for maximum (document.authMethods.flatMap (·.loginServers))
  rw [hservers] at hendpoints
  refine ((writeString_for maximum document.header.url limits).bind fun _ =>
    appends_ofExcept (F := fun _ out => ∃ o₁ o₂, out = o₁ ++ o₂ ∧
      ReadsAs (readCount "legacy login server count" limits.maxCollectionItems) o₁ loginServers.length ∧
        ReadsAs (readEndpoints loginServers.length) o₂ loginServers) fun count hc => ?_).mono ?_
  · have hcount : count = loginServers.length := by
      rw [orElse_eq_ok, hmethods] at hc
      simp [endpointCount] at hc
      exact hc.1.symm
    rw [hservers]
    subst hcount
    refine ((writeCount_for maximum loginServers.length _ limits.maxCollectionItems).bind fun _ =>
      hendpoints).mono ?_
    rintro x out ⟨-, o₁, o₂, h₁, h₂, rfl⟩
    exact ⟨o₁, o₂, rfl, h₁, h₂⟩
  · rintro x out ⟨-, o₁, o₂, hurl, ⟨o₃, o₄, rfl, hcount, hservers⟩, rfl⟩
    rw [hkept]
    exact hurl.bind (hcount.bind (hservers.bind_end (Takes.pure _)))

theorem writeCurrent_for (maximum : Nat) (limits : CodecLimits) (document : PinDocument) (h : document.Encodable)
    (hversion : ¬document.header.objectVersion = 1) :
    WrittenFor (writeCurrent maximum limits document) (readCurrent limits (common document.header))
      document.kept.payload := by
  refine ((writeU8_for maximum document.header.loginType).bind fun _ =>
    (writeString_for maximum document.header.aesKey limits).bind fun _ =>
    (writeString_for maximum document.header.url limits).bind fun _ =>
    (writeString_for maximum document.header.patchUrl limits).bind fun _ =>
    (writeCount_for maximum document.authMethods.length _ limits.maxCollectionItems).bind fun _ =>
    (Cursor.appends_writeFrom document.authMethods 0 fun method hmem nodes => writeAuthMethod_for maximum limits method nodes
      (h.methodKeys method hmem).1 (h.methodKeys method hmem).2).bind fun nodes₁ =>
    (BmlAux.writeOptionalBml_for maximum limits document.storageConfig nodes₁ h.storageKeys).bind fun nodes₂ =>
    (BmlAux.writeOptionalBml_for maximum limits document.extraConfig nodes₂ h.extraKeys).bind fun _ =>
    (Format.writes_pure PUnit.unit).appends).mono ?_
  rintro x out ⟨-, o₁, p₁, h₁, ⟨-, o₂, p₂, h₂, ⟨-, o₃, p₃, h₃, ⟨-, o₄, p₄, h₄, ⟨-, o₅, p₅, h₅, ⟨nodes₁, o₆, p₆, h₆,
    ⟨nodes₂, o₇, p₇, h₇, ⟨nodes₃, o₈, p₈, h₈, ⟨-, rfl⟩, rfl⟩, rfl⟩, rfl⟩, rfl⟩, rfl⟩, rfl⟩, rfl⟩, rfl⟩
  rw [List.append_nil, PinDocument.kept, if_neg hversion]
  exact h₁.bind (h₂.bind (h₃.bind (h₄.bind (h₅.bind (h₆.bind ((readSlot_of_readOptionalBml h₇).bind
    ((readSlot_of_readOptionalBml h₈).bind_end (Takes.pure _))))))))

/-- The parts of a payload are read back as what a file keeps of the document. -/
theorem writePayload_for (maximum : Nat) (limits : CodecLimits) (document : PinDocument) (h : document.Encodable) :
    WrittenFor (writePayload maximum limits document) (readPayload limits) document.kept.payload := by
  have hheader := writeHeader_for maximum document.header
  have hobject : (common document.header).objectVersion = document.header.objectVersion := rfl
  by_cases hversion : document.header.objectVersion = 1
  · refine (hheader.bind fun _ => by rw [if_pos hversion]; exact writeLegacy_for maximum limits document h hversion).mono ?_
    rintro x out ⟨-, o₁, o₂, h₁, h₂, rfl⟩
    refine h₁.bind ?_
    rwa [if_pos (hobject.trans hversion)]
  · refine (hheader.bind fun _ => by rw [if_neg hversion]; exact writeCurrent_for maximum limits document h hversion).mono ?_
    rintro x out ⟨-, o₁, o₂, h₁, h₂, rfl⟩
    refine h₁.bind ?_
    rwa [if_neg (fun hv => hversion (hobject.symm.trans hv))]

/-- The envelope is read back as its block. -/
theorem writeEnvelope_for (limits : CodecLimits) (encoded trailing : List UInt8) (hlt : encoded.length < 2 ^ 31)
    (hmax : encoded.length ≤ limits.maxEncodedBlockBytes) {file : List UInt8}
    (h : writeEnvelope limits.maxPinFileBytes encoded.length encoded trailing [] = (.ok ⟨⟩, file)) :
    file = spellCount encoded.length ++ encoded ++ trailing ∧
      ∃ before, readEnvelope limits ⟨file, 0⟩ = (.ok encoded, .between before trailing) := by
  have happends := ((appends_writeBytes limits.maxPinFileBytes (LittleEndian.ofI32 encoded.length)).bind fun _ =>
    (appends_writeBytes limits.maxPinFileBytes encoded).bind fun _ =>
    appends_writeBytes limits.maxPinFileBytes trailing) [] ⟨⟩ file h
  obtain ⟨out, ⟨-, o₁, o₂, h₁, ⟨-, o₃, o₄, h₂, h₃, rfl⟩, rfl⟩, rfl⟩ := happends
  rw [h₁, h₂, h₃, LittleEndian.ofI32_natCast hlt, List.nil_append, ← List.append_assoc]
  refine ⟨rfl, ?_⟩
  have htakes : ReadsAs (readEnvelope limits) (spellCount encoded.length ++ encoded) encoded :=
    (takes_readCount ⟨hmax, hlt⟩).bind (takes_take encoded)
  obtain ⟨t, ht, before, rfl⟩ := htakes (.between [] (spellCount encoded.length ++ encoded ++ trailing)) trailing ⟨[], rfl⟩
  exact ⟨before, ht⟩

/-- The parts of a payload are read back out of its plaintext, and the trailing bytes are left. -/
theorem readPayload_of_encodePayload {document : PinDocument} {limits : CodecLimits} {plaintext : List UInt8}
    (h : document.Encodable) (he : document.encodePayload limits = .ok plaintext) :
    ∃ before, readPayload limits ⟨plaintext, 0⟩ = (.ok document.kept.payload, .between before document.trailingPayload) := by
  unfold PinDocument.encodePayload at he
  obtain ⟨x, hwrite, he⟩ := bind_eq_ok.1 he
  obtain rfl := Except.ok.inj he
  have happends := (writePayload_for limits.maxDecodedBlockBytes limits document h).bind fun _ =>
    appends_writeBytes limits.maxDecodedBlockBytes document.trailingPayload
  obtain ⟨out, ⟨-, o₁, o₂, htakes, rfl, rfl⟩, hout⟩ := happends _ _ _ (Prod.ext hwrite rfl)
  rw [List.nil_append] at hout
  refine Eq.subst (motive := fun bytes => ∃ before, readPayload limits ⟨bytes, 0⟩ =
    (.ok document.kept.payload, .between before document.trailingPayload)) hout.symm ?_
  obtain ⟨t, ht, before, rfl⟩ := htakes (.between [] (o₁ ++ document.trailingPayload)) document.trailingPayload ⟨[], rfl⟩
  exact ⟨before, ht⟩

end Pin

namespace PinDocument

/-- A file decodes to what it keeps of the document it was encoded from, when decompression undoes compression. -/
theorem decode_encode {zlib : Zlib} (hz : zlib.Inverts) {document : PinDocument} {limits : CodecLimits} {output : List UInt8}
    (h : document.Encodable) (he : document.encodeWithLimits zlib limits = .ok output) :
    decodeWithLimits zlib output limits = .ok document.kept := by
  unfold encodeWithLimits at he
  obtain ⟨plaintext, hpayload, he⟩ := bind_eq_ok.1 he
  obtain ⟨encoded, hencoded, he⟩ := bind_eq_ok.1 he
  obtain ⟨length, hlength, he⟩ := bind_eq_ok.1 he
  obtain ⟨total, htotal, he⟩ := bind_eq_ok.1 he
  obtain ⟨x, hmax, he⟩ := bind_eq_ok.1 he
  obtain ⟨y, henvelope, he⟩ := bind_eq_ok.1 he
  rw [orElse_eq_ok, Checked.toI32_eq_some] at hlength
  obtain ⟨rfl, hlt⟩ := hlength
  rw [enforceLimit_eq_ok] at hmax
  have hblock : EncodedBlock.encode zlib plaintext document.encoding limits = .ok encoded := by
    cases hc : EncodedBlock.encode zlib plaintext document.encoding limits with
    | error e => simp [hc, mapError_error] at hencoded
    | ok block => simpa [hc, mapError_ok] using hencoded
  have hdecoded := EncodedBlock.decode_encode hz h.keyed hblock
  have hfits := EncodedBlock.length_le_of_decode hdecoded
  obtain ⟨hfile, before, hread⟩ := Pin.writeEnvelope_for limits encoded document.trailingEnvelope hlt hfits
    (Prod.ext henvelope (Except.ok.inj he))
  have hlen : 4 + encoded.length + document.trailingEnvelope.length = total := by
    rw [orElse_eq_ok, Option.bind_eq_some_iff] at htotal
    obtain ⟨n, hn, hn'⟩ := htotal
    rw [Checked.add_eq_some] at hn hn'
    omega
  have hsize : output.length = total := by
    have h4 : (spellCount encoded.length).length = 4 := LittleEndian.length_bytes ..
    rw [hfile, List.length_append, List.length_append, h4]
    exact hlen
  -- the payload comes back out of the plaintext
  obtain ⟨before', hpayload'⟩ := Pin.readPayload_of_encodePayload h hpayload
  have hkept : document.kept = ⟨document.kept.payload.header, document.kept.payload.authMethods,
      document.kept.payload.storageConfig, document.kept.payload.extraConfig, document.encoding, document.trailingPayload,
      document.trailingEnvelope⟩ := by
    unfold kept
    split <;> rfl
  unfold decodeWithLimits
  rw [hread, hkept]
  simp only [bind_eq_ok, enforceLimit_eq_ok, Cursor.remaining_between]
  refine ⟨(), by omega, encoded, rfl, ⟨plaintext, document.encoding⟩, ?_, document.kept.payload, ?_, ?_⟩
  · rw [hdecoded]
    rfl
  · rw [hpayload']
  · rw [hpayload', Cursor.remaining_between]
    rfl

end PinDocument

/-! ## What is decoded -/

namespace Pin

/-- What is true of the parts of every payload that is read. -/
structure Payload.Read (payload : Payload) : Prop where
  methodKeys : ∀ method ∈ payload.authMethods,
    (∀ tree ∈ method.accountConfig, KeysDistinct tree) ∧ ∀ tree ∈ method.extraConfig, KeysDistinct tree
  storageKeys : ∀ tree ∈ payload.storageConfig, KeysDistinct tree
  extraKeys : ∀ tree ∈ payload.extraConfig, KeysDistinct tree
  legacy : payload.header.objectVersion = 1 →
    (payload.header.loginType = 2 ∧ payload.header.aesKey = "" ∧ payload.header.patchUrl = "" ∧
      ∃ loginServers, payload.authMethods = [⟨1, "Default", none, loginServers, none⟩]) ∧
    payload.storageConfig = none ∧ payload.extraConfig = none

/-- The trees of a method that is read name no attribute twice. -/
theorem returns_readAuthMethod (limits : CodecLimits) (nodes : Nat) :
    Act.Returns (readAuthMethod limits nodes) (fun p =>
      (∀ tree ∈ p.1.accountConfig, KeysDistinct tree) ∧ ∀ tree ∈ p.1.extraConfig, KeysDistinct tree) :=
  (Act.returns_any _).bind fun _ _ => (Act.returns_any _).bind fun _ _ =>
    (BmlAux.returns_readOptionalBml limits nodes).bind fun account haccount => (Act.returns_any _).bind fun _ _ =>
      (Act.returns_any _).bind fun _ _ => (BmlAux.returns_readOptionalBml limits account.2).bind fun _ hextra =>
        Act.returns_pure ⟨haccount, hextra⟩

/-- The tree of a slot that is read names no attribute twice. -/
theorem returns_readSlot (limits : CodecLimits) (nodes : Nat) :
    Act.Returns (readSlot limits nodes) (fun p => ∀ tree ∈ p.1, KeysDistinct tree) := by
  refine (Act.returns_any _).bind fun payload _ => ?_
  split
  · exact Act.returns_pure (by simp)
  · exact BmlAux.returns_readOptionalBml limits nodes

/-- The header that every version has leaves the other fields empty. -/
theorem returns_readHeader :
    Act.Returns readHeader (fun header => header.aesKey = "" ∧ header.patchUrl = "") :=
  (Act.returns_any _).bind fun _ _ => (Act.returns_any _).bind fun _ _ => (Act.returns_any _).bind fun _ _ =>
    (Act.returns_any _).bind fun _ _ => (Act.returns_any _).bind fun _ _ => (Act.returns_any _).bind fun _ _ =>
      (Act.returns_any _).bind fun _ _ => (Act.returns_any _).bind fun _ _ => (Act.returns_any _).bind fun _ _ =>
        (Act.returns_any _).bind fun _ _ => Act.returns_pure ⟨rfl, rfl⟩

theorem returns_readPayload (limits : CodecLimits) : Act.Returns (readPayload limits) Payload.Read := by
  refine returns_readHeader.bind fun header hheader => ?_
  split
  · rename_i hversion
    refine (Act.returns_any _).bind fun url _ => (Act.returns_any _).bind fun _ _ => (Act.returns_any _).bind
      fun loginServers _ => Act.returns_pure ?_
    exact ⟨by simp, by simp, by simp, fun _ => ⟨⟨rfl, hheader.1, hheader.2, loginServers, rfl⟩, rfl, rfl⟩⟩
  · rename_i hversion
    refine (Act.returns_any _).bind fun _ _ => (Act.returns_any _).bind fun _ _ => (Act.returns_any _).bind fun _ _ =>
      (Act.returns_any _).bind fun _ _ => (Act.returns_any _).bind fun count _ =>
      (BmlAux.returns_times (P := fun method => (∀ tree ∈ method.accountConfig, KeysDistinct tree) ∧
        ∀ tree ∈ method.extraConfig, KeysDistinct tree) (returns_readAuthMethod limits) count 0).bind fun methods hmethods =>
      (returns_readSlot limits methods.2).bind fun storage hstorage =>
      (returns_readSlot limits storage.2).bind fun extra hextra => Act.returns_pure ?_
    exact ⟨hmethods, hstorage, hextra, fun hv => absurd hv hversion⟩

end Pin

namespace PinDocument

/-- A document that is decoded can be encoded, and a file keeps all of it. -/
theorem encodable_of_decode {zlib : Zlib} {input : List UInt8} {limits : CodecLimits} {document : PinDocument}
    (h : decodeWithLimits zlib input limits = .ok document) : document.Encodable ∧ document.kept = document := by
  unfold decodeWithLimits at h
  obtain ⟨x, -, h⟩ := bind_eq_ok.1 h
  obtain ⟨encoded, -, h⟩ := bind_eq_ok.1 h
  obtain ⟨decoded, hdecoded, h⟩ := bind_eq_ok.1 h
  obtain ⟨payload, hpayload, h⟩ := bind_eq_ok.1 h
  have hread := Pin.returns_readPayload limits _ _ _ (Prod.ext hpayload rfl)
  have hkeyed : EncodedBlock.WellKeyed decoded.encoding := by
    cases hd : EncodedBlock.decode zlib encoded limits with
    | error e => simp [hd, mapError_error] at hdecoded
    | ok block =>
      rw [hd] at hdecoded
      cases hdecoded
      exact EncodedBlock.wellKeyed_of_decode hd
  obtain rfl := Except.ok.inj h
  refine ⟨⟨hread.methodKeys, hread.storageKeys, hread.extraKeys, hkeyed, fun hv => (hread.legacy hv).1⟩, ?_⟩
  unfold kept
  split
  · rename_i hversion
    obtain ⟨-, hstorage, hextra⟩ := hread.legacy hversion
    simp only [hstorage, hextra]
  · rfl

/-! ## Patches -/

/-- A slot without its `NgsOn` entries: of a tree named `extra`, the direct children of that name are gone. -/
def withoutNgsOn (slot : Option BmlObject) : Option BmlObject :=
  slot.map fun config =>
    if eqIgnoreAsciiCase config.name "extra" then
      { config with children := config.children.filter fun child => !eqIgnoreAsciiCase child.name "NgsOn" }
    else config

/-- What a patch is meant to make of a document: the login servers of every method are the endpoint, the storage slot holds the
storage configuration if that was asked for, and the slots are without their `NgsOn` entries if that was. -/
def patchedTo (document : PinDocument) (endpoint : SocketAddrV4) (options : PinPatchOptions) : PinDocument :=
  let storageConfig := if options.overrideStorage then some p5136StorageConfig else document.storageConfig
  { document with
    authMethods := document.authMethods.map ({ · with loginServers := [endpoint] })
    storageConfig := if options.removeNgsOn then withoutNgsOn storageConfig else storageConfig
    extraConfig := if options.removeNgsOn then withoutNgsOn document.extraConfig else document.extraConfig }

/-- Taking the `NgsOn` entries out of a slot. -/
theorem removeNgsOn_fst (slot : Option BmlObject) : (removeNgsOn slot).1 = withoutNgsOn slot := by
  cases slot with
  | none => rfl
  | some config =>
    simp only [removeNgsOn, withoutNgsOn, Option.map_some]
    split <;> rfl

/-- The patch makes of a document what it is meant to, and reports what it did. -/
theorem patchP5136Endpoint_eq_ok {document patched : PinDocument} {endpoint : SocketAddrV4} {options : PinPatchOptions}
    {report : PinPatchReport} (h : document.patchP5136Endpoint endpoint options = .ok (patched, report)) :
    patched = document.patchedTo endpoint options ∧ report.storageOverridden = options.overrideStorage := by
  unfold patchP5136Endpoint at h
  obtain ⟨x, -, h⟩ := bind_eq_ok.1 h
  obtain ⟨y, -, h⟩ := bind_eq_ok.1 h
  cases h
  refine ⟨?_, rfl⟩
  unfold patchedTo
  cases options.removeNgsOn <;> simp [removeNgsOn_fst]

/-- Fewer children name no attribute twice either. -/
theorem keysDistinct_withoutNgsOn {slot : Option BmlObject} (h : ∀ tree ∈ slot, KeysDistinct tree) :
    ∀ tree ∈ withoutNgsOn slot, KeysDistinct tree := by
  intro tree htree
  obtain ⟨config, hconfig, rfl⟩ := Option.map_eq_some_iff.1 htree
  have hkeys := h config hconfig
  split
  · obtain ⟨name, value, attributes, children⟩ := config
    unfold KeysDistinct at hkeys ⊢
    exact ⟨hkeys.1, allKeysDistinct_iff.2 fun c hc => allKeysDistinct_iff.1 hkeys.2 c (List.mem_filter.1 hc).1⟩
  · exact hkeys

theorem keysDistinct_p5136StorageConfig : KeysDistinct p5136StorageConfig := by
  simp [p5136StorageConfig, KeysDistinct, AllKeysDistinct]

/-- A patched document can be encoded. -/
theorem Encodable.patchedTo {document : PinDocument} (h : document.Encodable) (endpoint : SocketAddrV4)
    (options : PinPatchOptions) : (document.patchedTo endpoint options).Encodable := by
  have hstorage : ∀ tree ∈ (if options.overrideStorage then some p5136StorageConfig else document.storageConfig),
      KeysDistinct tree := by
    split
    · rintro tree ⟨⟩
      exact keysDistinct_p5136StorageConfig
    · exact h.storageKeys
  refine ⟨?_, ?_, ?_, h.keyed, ?_⟩
  · intro method hmem
    obtain ⟨method', hmem', rfl⟩ := List.mem_map.1 hmem
    exact h.methodKeys method' hmem'
  · unfold PinDocument.patchedTo
    simp only
    split
    · exact keysDistinct_withoutNgsOn hstorage
    · exact hstorage
  · unfold PinDocument.patchedTo
    simp only
    split
    · exact keysDistinct_withoutNgsOn h.extraKeys
    · exact h.extraKeys
  · intro hversion
    obtain ⟨hlogin, haes, hpatch, loginServers, hmethods⟩ := h.legacy hversion
    refine ⟨hlogin, haes, hpatch, [endpoint], ?_⟩
    simp [PinDocument.patchedTo, hmethods]

end PinDocument

/-- A file that a patch returns decodes to what the patch is meant to make of the input's document. -/
theorem decode_patch {zlib : Zlib} (hz : zlib.Inverts) {input output : List UInt8} {endpoint : SocketAddrV4}
    {options : PinPatchOptions} {limits : CodecLimits} {report : PinPatchReport}
    (h : patchP5136PinWithLimits zlib input endpoint options limits = .ok (output, report)) :
    ∃ document, PinDocument.decodeWithLimits zlib input limits = .ok document ∧
      PinDocument.decodeWithLimits zlib output limits = .ok (document.patchedTo endpoint options) := by
  unfold patchP5136PinWithLimits at h
  obtain ⟨document, hdocument, h⟩ := bind_eq_ok.1 h
  obtain ⟨⟨patched, report'⟩, hpatched, h⟩ := bind_eq_ok.1 h
  obtain ⟨output', houtput, h⟩ := bind_eq_ok.1 h
  obtain ⟨verified, hverified, h⟩ := bind_eq_ok.1 h
  obtain ⟨x, -, h⟩ := bind_eq_ok.1 h
  obtain ⟨y, hstorage, h⟩ := bind_eq_ok.1 h
  cases h
  obtain ⟨rfl, hreport⟩ := PinDocument.patchP5136Endpoint_eq_ok hpatched
  obtain ⟨hencodable, hkept⟩ := PinDocument.encodable_of_decode hdocument
  have hdecoded := PinDocument.decode_encode hz (hencodable.patchedTo endpoint options) houtput
  have hverifiedEq : verified = (document.patchedTo endpoint options).kept := by
    rw [hdecoded] at hverified
    exact (Except.ok.inj hverified).symm
  refine ⟨document, hdocument, ?_⟩
  rw [hdecoded]
  have hobject : (document.patchedTo endpoint options).header.objectVersion = document.header.objectVersion := rfl
  by_cases hpatchedVersion : (document.patchedTo endpoint options).header.objectVersion = 1
  · -- version 1 has no slots: the file would not hold the storage configuration
    have hslots : document.storageConfig = none ∧ document.extraConfig = none := by
      rw [← hkept, PinDocument.kept, if_pos (hobject.symm.trans hpatchedVersion)]
      exact ⟨rfl, rfl⟩
    have hoverride : options.overrideStorage = false := by
      rw [ensure_eq_ok, hreport, hverifiedEq, PinDocument.kept, if_pos hpatchedVersion] at hstorage
      cases ho : options.overrideStorage with
      | false => rfl
      | true => simp [ho] at hstorage
    rw [PinDocument.kept, if_pos hpatchedVersion]
    simp [PinDocument.patchedTo, hoverride, hslots.1, hslots.2, PinDocument.withoutNgsOn]
  · rw [PinDocument.kept, if_neg hpatchedVersion]

/-- PIN files are read back as they were written, under any limits, when decompression undoes compression. A document that was
decoded and can be encoded again decodes from that encoding to itself. A file that the patch returns decodes to the document of
the input in which only the login servers of every method, the storage slot if that was asked for, and the `NgsOn` entries of
slots named `extra` if that was, are other than before. -/
theorem pin_files_read_back (zlib : Zlib) (hz : zlib.Inverts) (limits : CodecLimits) (input : List UInt8) :
    (∀ document output, PinDocument.decodeWithLimits zlib input limits = .ok document →
      document.encodeWithLimits zlib limits = .ok output →
        PinDocument.decodeWithLimits zlib output limits = .ok document) ∧
    (∀ endpoint options output report,
      patchP5136PinWithLimits zlib input endpoint options limits = .ok (output, report) →
        ∃ document, PinDocument.decodeWithLimits zlib input limits = .ok document ∧
          PinDocument.decodeWithLimits zlib output limits = .ok (document.patchedTo endpoint options)) := by
  refine ⟨?_, fun endpoint options output report h => decode_patch hz h⟩
  intro document output hdecode hencode
  obtain ⟨hencodable, hkept⟩ := PinDocument.encodable_of_decode hdecode
  rw [PinDocument.decode_encode hz hencodable hencode, hkept]

namespace PinAux

/-- A payload: one method with two login servers, no storage slot, and a slot `Extra` with an entry `ngson` and another. -/
def samplePayload : List UInt8 :=
  [126, 3, 239, 16, 5, 234, 3, 118, 0, 0, 0, 16, 20, 0, 0, 2, 0, 0, 0, 0, 1, 0, 0, 0, 117, 0, 0, 0, 0, 0, 1, 0, 0, 0,
   1, 1, 0, 0, 0, 68, 0, 0, 2, 0, 0, 0, 10, 0, 0, 1, 143, 153, 10, 0, 0, 2, 144, 153, 0, 0, 1, 5, 0, 0, 0, 69, 0,
   120, 0, 116, 0, 114, 0, 97, 0, 0, 0, 0, 0, 0, 0, 0, 0, 2, 0, 0, 0, 5, 0, 0, 0, 110, 0, 103, 0, 115, 0, 111, 0,
   110, 0, 0, 0, 0, 0, 0, 0, 0, 0, 0, 0, 0, 0, 1, 0, 0, 0, 120, 0, 0, 0, 0, 0, 0, 0, 0, 0, 0, 0, 0, 0]

/-- The zlib stream of that payload. -/
def sampleStream : List UInt8 :=
  [120, 218, 171, 99, 126, 47, 192, 250, 138, 185, 140, 129, 129, 65, 64, 132, 129, 129, 9, 72, 51, 48, 2, 113, 41,
   3, 140, 197, 8, 34, 92, 32, 82, 92, 64, 110, 255, 76, 32, 201, 52, 97, 38, 144, 201, 10, 20, 114, 101, 168, 96,
   40, 97, 40, 98, 72, 100, 128, 1, 144, 66, 144, 76, 30, 67, 58, 67, 49, 67, 62, 144, 70, 6, 32, 211, 42, 80, 68, 0,
   94, 189, 10, 229]

/-- The payload with one login server and without the entry. -/
def patchedPayload : List UInt8 :=
  [126, 3, 239, 16, 5, 234, 3, 118, 0, 0, 0, 16, 20, 0, 0, 2, 0, 0, 0, 0, 1, 0, 0, 0, 117, 0, 0, 0, 0, 0, 1, 0, 0, 0,
   1, 1, 0, 0, 0, 68, 0, 0, 1, 0, 0, 0, 192, 0, 2, 10, 201, 175, 0, 0, 1, 5, 0, 0, 0, 69, 0, 120, 0, 116, 0, 114, 0,
   97, 0, 0, 0, 0, 0, 0, 0, 0, 0, 1, 0, 0, 0, 1, 0, 0, 0, 120, 0, 0, 0, 0, 0, 0, 0, 0, 0, 0, 0, 0, 0]

/-- The zlib stream of that payload. -/
def patchedStream : List UInt8 :=
  [120, 218, 171, 99, 126, 47, 192, 250, 138, 185, 140, 129, 129, 65, 64, 132, 129, 129, 9, 72, 51, 48, 2, 113, 41,
   3, 140, 197, 8, 34, 92, 32, 236, 3, 12, 76, 92, 39, 215, 3, 217, 172, 64, 142, 43, 67, 5, 67, 9, 67, 17, 67, 34,
   3, 12, 48, 66, 113, 5, 3, 50, 0, 0, 23, 255, 8, 149]

/-- The file of the first payload, compressed and under the default key, with one more byte behind the block. -/
def sampleFile : List UInt8 :=
  [97, 0, 0, 0, 83, 3, 228, 10, 58, 94, 51, 150, 105, 51, 131, 0, 0, 0, 138, 183, 177, 212, 205, 70, 78, 193, 254,
   220, 142, 65, 180, 32, 54, 192, 119, 221, 227, 128, 132, 104, 92, 60, 81, 87, 94, 20, 49, 114, 26, 118, 168, 23,
   250, 180, 68, 11, 14, 150, 72, 34, 132, 115, 244, 53, 2, 26, 155, 146, 234, 196, 222, 30, 156, 56, 228, 178, 115,
   101, 3, 190, 170, 103, 177, 87, 89, 134, 240, 87, 30, 125, 114, 69, 209, 234, 101, 37, 118, 26, 75, 86, 15, 7]

/-- The compression library, as far as these payloads go. -/
def sampleZlib : Zlib := .ofTable [(samplePayload, sampleStream), (patchedPayload, patchedStream)]

/-- The login server a patch puts in. -/
def sampleEndpoint : SocketAddrV4 := ⟨(192, 0, 2, 10), 45001⟩

end PinAux

/-- The file of a compressed and encrypted payload: it is decoded, encoded and decoded again, and patched. -/
theorem pin_files_read_back_sample :
    ∃ document output patched report,
      PinDocument.decodeWithLimits PinAux.sampleZlib PinAux.sampleFile .default = .ok document ∧
      document.encodeWithLimits PinAux.sampleZlib .default = .ok output ∧
      PinDocument.decodeWithLimits PinAux.sampleZlib output .default = .ok document ∧
      patchP5136PinWithLimits PinAux.sampleZlib PinAux.sampleFile PinAux.sampleEndpoint ⟨true, false⟩ .default =
        .ok (patched, report) ∧
      PinDocument.decodeWithLimits PinAux.sampleZlib patched .default =
        .ok (document.patchedTo PinAux.sampleEndpoint ⟨true, false⟩) := by
  have hz : PinAux.sampleZlib.Inverts := Zlib.inverts_ofTable (by decide)
  obtain ⟨hround, hpatch⟩ := pin_files_read_back PinAux.sampleZlib hz .default PinAux.sampleFile
  cases hp : patchP5136PinWithLimits PinAux.sampleZlib PinAux.sampleFile PinAux.sampleEndpoint ⟨true, false⟩ .default with
  | error e =>
    have hok : (patchP5136PinWithLimits PinAux.sampleZlib PinAux.sampleFile PinAux.sampleEndpoint ⟨true, false⟩
      .default).isOk = true := by decide +kernel
    rw [hp] at hok
    cases hok
  | ok result =>
    obtain ⟨patched, report⟩ := result
    obtain ⟨document, hdocument, hpatched⟩ := hpatch _ _ _ _ hp
    cases he : document.encodeWithLimits PinAux.sampleZlib .default with
    | error e =>
      have hok : ((PinDocument.decodeWithLimits PinAux.sampleZlib PinAux.sampleFile .default).bind fun document =>
        document.encodeWithLimits PinAux.sampleZlib .default).isOk = true := by decide +kernel
      rw [hdocument] at hok
      change (document.encodeWithLimits PinAux.sampleZlib .default).isOk = true at hok
      rw [he] at hok
      cases hok
    | ok output => exact ⟨document, output, patched, report, hdocument, he, hround _ _ hdocument he, rfl, hpatched⟩

end P5136.Connector
