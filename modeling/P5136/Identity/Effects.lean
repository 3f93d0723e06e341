import P5136.Identity.WellFormed

/-!
# What each operation does to the registry

For each operation, every outcome it has: the result, the guards that led to it and the registry it leaves. An operation that
edits the registry more than once is a run of edits, with the identities it released in order.
-/

namespace P5136

namespace IdentityRegistry

/-- What a run of edits may do to permits and to the bindings of sessions. -/
structure Licence where
  grants : Prop
  lapses : Prop
  unbinds : SessionId → Prop

namespace Licence

/-- A run that leaves permits and bindings alone. -/
def plain : Licence := ⟨False, False, fun _ => False⟩

/-- A run that grants a permit. -/
def granting : Licence := ⟨True, False, fun _ => False⟩

/-- A run in which permits lapse. -/
def lapsing : Licence := ⟨False, True, fun _ => False⟩

/-- A run that takes these sessions their bindings. -/
def unbinding (sessions : SessionId → Prop) : Licence := ⟨False, False, sessions⟩

/-- The edits that a run under the licence may be made of. None of them admits, freezes or publishes. -/
def Allows (L : Licence) : EditLabel → Prop
  | .quiet => True
  | .released _ => True
  | .granted _ => L.grants
  | .expired => L.lapses
  | .unbound session => L.unbinds session
  | _ => False

end Licence

/-- The identities that an edit releases. -/
def EditLabel.releasedOf : EditLabel → List ReleasedIdentity
  | .released i => [i]
  | _ => []

/-- A run of edits under a licence, with the identities it released. -/
inductive Edits (U : Unicode) (L : Licence) : IdentityRegistry → List ReleasedIdentity → IdentityRegistry → Prop where
  | refl (r : IdentityRegistry) : Edits U L r [] r
  | snoc {r r₁ r₂ : IdentityRegistry} {is : List ReleasedIdentity} {l : EditLabel} :
      Edits U L r is r₁ → L.Allows l → Edit U r₁ l r₂ → Edits U L r (is ++ l.releasedOf) r₂

namespace Edits

variable {U : Unicode} {L : Licence} {r r' r₁ r₂ : IdentityRegistry} {is js : List ReleasedIdentity}

/-- Runs of edits compose. -/
theorem trans (h : Edits U L r is r₁) (h' : Edits U L r₁ js r₂) : Edits U L r (is ++ js) r₂ := by
  induction h' with
  | refl => simpa using h
  | snoc _ hl he ih =>
    rw [← List.append_assoc]
    exact Edits.snoc ih hl he

/-- A run goes on with an edit that releases nothing. -/
theorem silent {l : EditLabel} (h : Edits U L r is r₁) (he : Edit U r₁ l r₂) (hl : L.Allows l) (hrel : l.releasedOf = []) :
    Edits U L r is r₂ := by
  have hrun := Edits.snoc h hl he
  rw [hrel, List.append_nil] at hrun
  exact hrun

/-- A run goes on quietly. -/
theorem quiet (h : Edits U L r is r₁) (he : Edit U r₁ .quiet r₂) : Edits U L r is r₂ :=
  h.silent he trivial rfl

/-- A run goes on with a release. -/
theorem release {i : ReleasedIdentity} (h : Edits U L r is r₁) (he : Edit U r₁ (.released i) r₂) :
    Edits U L r (is ++ [i]) r₂ :=
  Edits.snoc (l := .released i) h trivial he

/-- One quiet edit. -/
theorem single (h : Edit U r .quiet r') : Edits U L r [] r' := (Edits.refl r).quiet h

/-- A run of edits keeps the invariant. -/
theorem wellFormed (h : Edits U L r is r') (hr : r.WellFormed U) : r'.WellFormed U := by
  induction h with
  | refl => exact hr
  | snoc _ _ he ih => exact he.wellFormed ih

end Edits

/-- Setting a gate to what it is changes nothing. -/
theorem setGate_self (r : IdentityRegistry) (id : GateId) : r.setGate id (r.gate id) = r := by
  unfold setGate gate GateArena.set
  rw [Function.update_eq_self]

/-! ## Numbers and names -/

/-- An allocation of a generation fails and changes nothing, or takes the next one. -/
theorem allocateGeneration_cases {r : IdentityRegistry} (h : 0 < r.nextGeneration) :
    r.allocateGeneration = (.error .generationExhausted, r) ∨
    r.allocateGeneration = (.ok ⟨r.nextGeneration⟩, { r with nextGeneration := r.nextGeneration + 1 }) := by
  unfold allocateGeneration
  cases hc : checkedAdd 64 r.nextGeneration 1 with
  | none => exact Or.inl rfl
  | some n =>
    obtain ⟨rfl, -⟩ := checkedAdd_eq_some.1 hc
    right
    simp only [Nat.ne_of_gt h, if_false]

/-- An allocation of a transfer id fails and changes nothing, or takes the next one. -/
theorem allocateTransferId_cases {r : IdentityRegistry} (h : 0 < r.nextTransferId) :
    r.allocateTransferId = (.error .migrationTransferIdExhausted, r) ∨
    (r.nextTransferId + 1 < 2 ^ 64 ∧
      r.allocateTransferId = (.ok ⟨r.nextTransferId⟩, { r with nextTransferId := r.nextTransferId + 1 })) := by
  unfold allocateTransferId
  cases hc : checkedAdd 64 r.nextTransferId 1 with
  | none => exact Or.inl rfl
  | some n =>
    obtain ⟨rfl, hlt⟩ := checkedAdd_eq_some.1 hc
    refine Or.inr ⟨hlt, ?_⟩
    simp only [Nat.ne_of_gt h, if_false]

/-- An allocation of a user number fails, perhaps using up the number, or takes the next one. -/
theorem allocateUserNo_cases (r : IdentityRegistry) :
    (∃ e u, r.allocateUserNo = (.error e, { r with nextUserNo := r.nextUserNo + u })) ∨
    (∃ u, u.get = r.nextUserNo ∧ r.allocateUserNo = (.ok u, { r with nextUserNo := r.nextUserNo + 1 })) := by
  unfold allocateUserNo
  cases hc : checkedAdd 32 r.nextUserNo 1 with
  | none => exact Or.inl ⟨_, 0, rfl⟩
  | some n =>
    obtain ⟨rfl, -⟩ := checkedAdd_eq_some.1 hc
    cases hu : UserNo.new r.nextUserNo with
    | none => exact Or.inl ⟨_, 1, rfl⟩
    | some u => exact Or.inr ⟨u, UserNo.get_of_new hu, rfl⟩

/-- Making a nickname known is a quiet run of edits that touches the name tables only; afterwards the nickname is known. -/
theorem ensureKnownUserNo_cases {U : Unicode} {r : IdentityRegistry} (h : r.WellFormed U) (requested : String) :
    (∃ e, (r.ensureKnownUserNo U requested).1 = .error e) ∧ Edits U .plain r [] (r.ensureKnownUserNo U requested).2 ∨
    (∃ nickname known, normalizeNickname U requested = .ok nickname ∧
      (r.ensureKnownUserNo U requested).1 = .ok known.userNo ∧ Edits U .plain r [] (r.ensureKnownUserNo U requested).2 ∧
      (r.ensureKnownUserNo U requested).2.knownByName.lookup (canonicalNicknameKey U nickname) = some known ∧
      (r.ensureKnownUserNo U requested).2.sessionBindings = r.sessionBindings ∧
      (r.ensureKnownUserNo U requested).2.activeByName = r.activeByName ∧
      (r.ensureKnownUserNo U requested).2.deferredReleases = r.deferredReleases ∧
      (r.ensureKnownUserNo U requested).2.nextGeneration = r.nextGeneration ∧
      (r.ensureKnownUserNo U requested).2.gates = r.gates) := by
  unfold ensureKnownUserNo
  cases hn : normalizeNickname U requested with
  | error e => exact Or.inl ⟨⟨_, rfl⟩, Edits.refl r⟩
  | ok nickname =>
    simp only
    cases hk : r.knownByName.lookup (canonicalNicknameKey U nickname) with
    | some known => exact Or.inr ⟨nickname, known, rfl, rfl, Edits.refl r, hk, rfl, rfl, rfl, rfl, rfl⟩
    | none =>
      rcases r.allocateUserNo_cases with ⟨e, u, ha⟩ | ⟨u, hu, ha⟩
      · simp only [ha]
        refine Or.inl ⟨⟨_, rfl⟩, Edits.single ?_⟩
        exact Edit.burn u 0 0 h.transferId_lt
      · simp only [ha]
        refine Or.inr ⟨nickname, ⟨nickname, u⟩, rfl, rfl, Edits.single ?_, by simp, trivial, trivial, trivial,
          trivial, trivial⟩
        exact Edit.know _ ⟨nickname, u⟩ hk rfl hu

/-! ## Logging in -/

/-- A claim that succeeds activates the next generation, for a session that had no identity. -/
theorem claimAt_cases {U : Unicode} {r : IdentityRegistry} (h : r.WellFormed U) (session : SessionId) (sourceIp : IpAddr)
    (requested : String) (epoch : Nat) :
    Edits U .plain r [] (r.claimAt U session sourceIp requested epoch).2 ∧
    ∀ b, (r.claimAt U session sourceIp requested epoch).1 = .ok b →
      b.generation = ⟨r.nextGeneration⟩ ∧ b.owner = session ∧ r.sessionBindings.lookup session = none ∧
      (r.claimAt U session sourceIp requested epoch).2.nextGeneration = r.nextGeneration + 1 := by
  unfold claimAt
  split
  · exact ⟨Edits.refl r, fun b hb => by cases hb⟩
  cases hn : normalizeNickname U requested with
  | error e => exact ⟨Edits.refl r, fun b hb => by cases hb⟩
  | ok nickname =>
    simp only
    cases hs : r.sessionBindings.lookup session with
    | some b => exact ⟨Edits.refl r, fun b hb => by cases hb⟩
    | none =>
      simp only
      cases ha : r.activeByName.lookup (canonicalNicknameKey U nickname) with
      | some a => exact ⟨Edits.refl r, fun b hb => by cases hb⟩
      | none =>
        simp only
        cases hd : r.deferredReleases.find? (fun d => d.canonicalNickname = canonicalNicknameKey U nickname) with
        | some d => exact ⟨Edits.refl r, fun b hb => by cases hb⟩
        | none =>
          simp only
          rcases ensureKnownUserNo_cases h nickname with ⟨⟨e, he⟩, hed⟩ | ⟨nick, known, -, hok, hed, -, hses, hact, hdef, hgen, hgt⟩
          · generalize r.ensureKnownUserNo U nickname = res at he hed
            obtain ⟨res, r₁⟩ := res
            simp only at he hed
            subst he
            exact ⟨hed, fun b hb => by cases hb⟩
          · generalize r.ensureKnownUserNo U nickname = res at hok hed hses hact hdef hgen hgt
            obtain ⟨res, r₁⟩ := res
            simp only at hok hed hses hact hdef hgen hgt
            subst hok
            simp only
            have h₁ := hed.wellFormed h
            cases hk : r₁.knownByName.lookup (canonicalNicknameKey U nickname) with
            | none => exact ⟨hed, fun b hb => by cases hb⟩
            | some kn =>
              simp only
              split
              · exact ⟨hed, fun b hb => by cases hb⟩
              rcases allocateGeneration_cases h₁.generation_pos with hg | hg
              · simp only [hg]
                exact ⟨hed, fun b hb => by cases hb⟩
              · simp only [hg]
                refine ⟨hed.quiet ?_, ?_⟩
                · refine Edit.login _ kn session sourceIp epoch hk (hses ▸ hs) (hact ▸ ha) ?_
                  intro d hdm heq
                  have := List.find?_eq_none.1 hd d (hdef ▸ hdm)
                  simp [heq] at this
                · intro b hb
                  cases hb
                  exact ⟨congrArg IdentityGeneration.mk hgen, rfl, trivial, congrArg (· + 1) hgen⟩

/-! ## Operations -/

/-- An authorized session is bound to the identity it owns, which no transfer has frozen. -/
theorem authorize_ok {U : Unicode} {r : IdentityRegistry} (h : r.WellFormed U) {session : SessionId} {b : IdentityBinding}
    (hb : r.authorize U session = .ok b) :
    ∃ a, r.activeByName.lookup (canonicalNicknameKey U b.nickname) = some a ∧ a.owner = some session ∧
      a.transferInProgress = none ∧ b = identityBinding a session ∧ r.sessionBindings.lookup session = some b := by
  unfold authorize at hb
  cases hs : r.sessionBindings.lookup session with
  | none => simp [hs] at hb
  | some b' =>
    simp only [hs] at hb
    cases ha : r.activeByName.lookup (canonicalNicknameKey U b'.nickname) with
    | none => simp [ha] at hb
    | some a =>
      simp only [ha] at hb
      split at hb
      · cases hb
      rename_i hown
      split at hb
      · cases hb
      rename_i hfro
      cases hb
      obtain ⟨ho, -⟩ := not_or.1 hown
      have ho := not_not.1 ho
      have hbound := (h.active _ a ha).bound session ho
      rw [hs] at hbound
      exact ⟨a, ha, ho, by simpa using hfro, Option.some.inj hbound, rfl⟩

/-- An admission is refused and changes nothing, or counts one more operation at an open gate. -/
theorem admitAt_cases (r : IdentityRegistry) (id : GateId) (b : IdentityBinding) :
    (∃ e, r.admitAt id b = (.error e, r)) ∨
    ((r.gate id).IsOpen ∧ r.admitAt id b =
      (.ok ⟨id, b⟩, r.setGate id { r.gate id with activeOperations := (r.gate id).activeOperations + 1 })) := by
  unfold admitAt
  rcases (r.gate id).tryAdmit_cases with ⟨e, he⟩ | ⟨ho, he⟩
  · simp only [he, setGate_self]
    exact Or.inl ⟨e, rfl⟩
  · simp only [he]
    exact Or.inr ⟨ho, trivial⟩

/-- What an admission of an operation comes to: a refusal that changes nothing, or a lease of an active identity that has an
owner and that no transfer has frozen. -/
def Admits (r : IdentityRegistry) (result : Except IdentityError IdentityOperationLease × IdentityRegistry) : Prop :=
  (∃ e, result = (.error e, r)) ∨
  ∃ key a s, r.activeByName.lookup key = some a ∧ a.owner = some s ∧ a.transferInProgress = none ∧
    result = (.ok ⟨a.operationGate, identityBinding a s⟩, r.setGate a.operationGate
      { r.gate a.operationGate with activeOperations := (r.gate a.operationGate).activeOperations + 1 })

/-- An operation of a session. -/
theorem admitOperation_cases {U : Unicode} {r : IdentityRegistry} (h : r.WellFormed U) (session : SessionId) :
    r.Admits (r.admitOperation U session) := by
  unfold admitOperation
  cases hb : r.authorize U session with
  | error e => exact Or.inl ⟨e, rfl⟩
  | ok b =>
    obtain ⟨a, ha, ho, hnt, hbe, -⟩ := authorize_ok h hb
    simp only [ha]
    rcases r.admitAt_cases a.operationGate b with ⟨e, he⟩ | ⟨-, he⟩
    · exact Or.inl ⟨e, he⟩
    · exact Or.inr ⟨_, a, session, ha, ho, hnt, hbe ▸ he⟩

/-- An operation of a datagram. -/
theorem admitUdpOperation_cases (r : IdentityRegistry) (u : UserNo) (epoch : Nat) :
    r.Admits (r.admitUdpOperation u epoch) := by
  unfold admitUdpOperation
  cases hn : r.nameByUserNo.lookup u with
  | none => exact Or.inl ⟨_, rfl⟩
  | some key =>
    simp only
    cases ha : r.activeByName.lookup key with
    | none => exact Or.inl ⟨_, rfl⟩
    | some a =>
      simp only [activeIdentityBinding]
      cases ho : a.owner with
      | none => exact Or.inl ⟨_, rfl⟩
      | some s =>
        simp only [Option.map_some]
        split
        · exact Or.inl ⟨_, rfl⟩
        rename_i hnt
        split
        · exact Or.inl ⟨_, rfl⟩
        rcases r.admitAt_cases a.operationGate (identityBinding a s) with ⟨e, he⟩ | ⟨-, he⟩
        · exact Or.inl ⟨e, he⟩
        · exact Or.inr ⟨key, a, s, ha, ho, by simpa using hnt, he⟩

/-! ## Migrations -/

/-- The permit that `begin_migration` gives for an identity. -/
def permitFor (a : ActiveIdentity) (session : SessionId) (channel : ChannelBinding) (token : MigrationToken)
    (expiresAt : Instant) : MigrationPermit where
  userNo := a.known.userNo
  sourceGeneration := a.generation
  sourceSession := session
  sourceIp := a.ownerIp
  channel := channel
  token := token
  expiresAt := expiresAt

/-- A migration that begins gives the identity its session owns a permit; otherwise nothing changes. -/
theorem beginMigration_cases {U : Unicode} {r : IdentityRegistry} (h : r.WellFormed U) (session : SessionId)
    (channel : ChannelBinding) (token : MigrationToken) (now : Instant) :
    (∃ e, r.beginMigration U session channel token now = (.error e, r)) ∨
    ∃ key a t, r.activeByName.lookup key = some a ∧ a.owner = some session ∧ a.transferInProgress = none ∧
      Instant.checkedAdd now migrationTtl = some t ∧
      r.beginMigration U session channel token now = (.ok (permitFor a session channel token t),
        { r with activeByName :=
            r.activeByName.insert key { a with permit := some (permitFor a session channel token t) } }) := by
  unfold beginMigration
  generalize Instant.checkedAdd now migrationTtl = expiresAt
  cases hb : r.authorize U session with
  | error e => exact Or.inl ⟨e, rfl⟩
  | ok b =>
    cases expiresAt with
    | none => exact Or.inl ⟨_, rfl⟩
    | some t =>
      obtain ⟨a, ha, ho, hnt, hbe, -⟩ := authorize_ok h hb
      simp only [ha]
      subst hbe
      exact Or.inr ⟨_, a, t, ha, ho, hnt, rfl, rfl⟩

/-- The edit of a migration that begins. -/
theorem beginMigration_edits {U : Unicode} {r : IdentityRegistry} (h : r.WellFormed U) (session : SessionId)
    (channel : ChannelBinding) (token : MigrationToken) (now : Instant) :
    Edits U .granting r [] (r.beginMigration U session channel token now).2 := by
  rcases beginMigration_cases h session channel token now with ⟨e, he⟩ | ⟨key, a, t, ha, ho, hnt, -, he⟩
  · rw [he]
    exact Edits.refl r
  · rw [he]
    exact (Edits.refl r).silent (Edit.grant key a _ ha hnt ho rfl rfl rfl) trivial rfl

/-- The credentials are those of a permit that has not expired, for the active generation of the user and from its owner, and
the destination has no identity. -/
structure Validated (r : IdentityRegistry) (destination : SessionId) (ip : IpAddr) (u : UserNo) (channelId : UInt16)
    (token : MigrationToken) (now : Instant) (key : String) (a : ActiveIdentity) (p : MigrationPermit) : Prop where
  unbound : r.sessionBindings.lookup destination = none
  name : r.nameByUserNo.lookup u = some key
  active : r.activeByName.lookup key = some a
  permit : a.permit = some p
  inTime : now < p.expiresAt
  userNo : p.userNo = u
  channelId : p.channel.channelId = channelId
  token : p.token = token
  sourceIp : p.sourceIp = ip
  generation : p.sourceGeneration = a.generation
  owner : ∀ s, a.owner = some s → s = p.sourceSession

/-- A validated migration. -/
theorem validateMigration_ok {r : IdentityRegistry} {destination : SessionId} {ip : IpAddr} {u : UserNo} {channelId : UInt16}
    {token : MigrationToken} {now : Instant} {v : ValidatedMigration}
    (hv : r.validateMigration destination ip u channelId token now = .ok v) :
    r.Validated destination ip u channelId token now v.canonicalNickname v.active v.permit := by
  unfold validateMigration at hv
  cases hs : r.sessionBindings.lookup destination with
  | some b => simp [hs] at hv
  | none =>
    simp only [hs] at hv
    cases hn : r.nameByUserNo.lookup u with
    | none => simp [hn] at hv
    | some key =>
      simp only [hn] at hv
      cases ha : r.activeByName.lookup key with
      | none =>
        simp only [ha] at hv
        split at hv
        · cases hv
        · cases hv
      | some a =>
        simp only [ha] at hv
        cases hp : a.permit with
        | none => simp [hp] at hv
        | some p =>
          simp only [hp] at hv
          split at hv
          · cases hv
          rename_i hnow
          split at hv
          · cases hv
          rename_i huser
          split at hv
          · cases hv
          rename_i hchan
          split at hv
          · cases hv
          rename_i htok
          split at hv
          · cases hv
          rename_i hip
          split at hv
          · cases hv
          rename_i hgen
          cases hv
          obtain ⟨hgen, hown⟩ := not_or.1 hgen
          refine ⟨hs, hn, ha, hp, not_le.1 hnow, not_not.1 huser, not_not.1 hchan, not_not.1 htok, not_not.1 hip,
            not_not.1 hgen, ?_⟩
          intro s hos
          have hos : a.owner = some s := hos
          simp only [hos, Option.any_some, decide_eq_true_eq, not_not] at hown
          exact hown

end IdentityRegistry

end P5136
