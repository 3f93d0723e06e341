import P5136.Identity.Effects

/-!
# What a channel migration does to the registry

The outcomes of a preflight, an abort, a preparation, a lock, a commit and a dropped lock. A ticket is validated against the
permit that is current each time; what one validation found is `Ready`, and what a held lock keeps is `Locked`.
-/

namespace P5136

namespace IdentityRegistry

open IdentityOperationGate

/-- The ticket that a preflight mints for an identity and its permit. -/
def ticketFor (r : IdentityRegistry) (destination : SessionId) (ip : IpAddr) (u : UserNo) (channelId : UInt16)
    (token : MigrationToken) (key : String) (a : ActiveIdentity) (p : MigrationPermit) : MigrationPreflight where
  transferId := ⟨r.nextTransferId⟩
  destinationSession := destination
  destinationIp := ip
  userNo := u
  channelId := channelId
  channel := p.channel
  token := token
  sourceGeneration := p.sourceGeneration
  sourceState := .fromOwner a.owner
  sourceSession := p.sourceSession
  expiresAt := p.expiresAt
  nickname := a.known.nickname
  canonicalNickname := key
  drainGate := a.operationGate

/-- The registry after the next transfer froze the identity. -/
def frozen (r : IdentityRegistry) (key : String) (a : ActiveIdentity) : IdentityRegistry :=
  { r.setGate a.operationGate { r.gate a.operationGate with state := r.nextTransferId } with
    activeByName := r.activeByName.insert key { a with transferInProgress := some ⟨r.nextTransferId⟩ }
    nextTransferId := r.nextTransferId + 1 }

/-- The registry after the identity was reopened. -/
def reopened (r : IdentityRegistry) (key : String) (a : ActiveIdentity) : IdentityRegistry :=
  { r.setGate a.operationGate { r.gate a.operationGate with state := opened } with
    activeByName := r.activeByName.insert key { a with transferInProgress := none } }

/-- A preflight freezes a validated identity that is not frozen and mints its ticket, or changes nothing. -/
theorem preflightMigration_cases {U : Unicode} {r : IdentityRegistry} (h : r.WellFormed U) (destination : SessionId)
    (ip : IpAddr) (u : UserNo) (channelId : UInt16) (token : MigrationToken) (now : Instant) :
    (∃ e, r.preflightMigration destination ip u channelId token now = (.error e, r)) ∨
    ∃ key a p, r.Validated destination ip u channelId token now key a p ∧ a.transferInProgress = none ∧
      r.nextTransferId + 1 < 2 ^ 64 ∧ r.preflightMigration destination ip u channelId token now =
        (.ok (r.ticketFor destination ip u channelId token key a p), r.frozen key a) := by
  unfold preflightMigration
  cases hv : r.validateMigration destination ip u channelId token now with
  | error e => exact Or.inl ⟨e, rfl⟩
  | ok v =>
    have hval := validateMigration_ok hv
    simp only
    split
    · exact Or.inl ⟨_, rfl⟩
    rename_i hnt
    have hnt : v.active.transferInProgress = none := by simpa using hnt
    rcases allocateTransferId_cases h.transferId_pos with ht | ⟨hlt, ht⟩
    · simp only [ht]
      exact Or.inl ⟨_, rfl⟩
    · simp only [ht]
      have hact := hval.active
      have hopen : (r.gate v.active.operationGate).IsOpen := (h.active _ _ hact).opened hnt
      have hfreeze : (r.gate v.active.operationGate).freeze ⟨r.nextTransferId⟩ =
          (true, { r.gate v.active.operationGate with state := r.nextTransferId }) := by
        unfold freeze
        rw [if_pos hopen]
      refine Or.inr ⟨_, _, _, hval, hnt, hlt, ?_⟩
      simp only [hact, hval.generation, ne_eq, not_true_eq_false, or_self, if_false]
      rw [show (IdentityRegistry.gate { r with nextTransferId := r.nextTransferId + 1 } v.active.operationGate) =
        r.gate v.active.operationGate from rfl, hfreeze]
      simp only [ticketFor, frozen, hval.generation]
      rfl

/-- The edit of a preflight. -/
theorem frozen_edit {U : Unicode} {r : IdentityRegistry} (h : r.WellFormed U) {key : String} {a : ActiveIdentity}
    (ha : r.activeByName.lookup key = some a) (hp : a.permit.isSome) (hnt : a.transferInProgress = none)
    (hlt : r.nextTransferId + 1 < 2 ^ 64) : Edit U r (.froze ⟨r.nextTransferId⟩) (r.frozen key a) :=
  Edit.freeze key a ha hp ((h.active key a ha).opened hnt) hlt

/-- The ticket describes the identity: its transfer, its gate and its permit. -/
structure Describes (t : MigrationPreflight) (key : String) (a : ActiveIdentity) : Prop where
  key : key = t.canonicalNickname
  generation : a.generation = t.sourceGeneration
  nickname : a.known.nickname = t.nickname
  transfer : a.transferInProgress = some t.transferId
  gate : a.operationGate = t.drainGate
  permit : a.permit.any (MigrationPermit.isExactFor · t) = true

/-- An abort reopens the identity the ticket froze, or changes nothing. -/
theorem abortPreflightedMigration_cases (r : IdentityRegistry) (t : MigrationPreflight) :
    r.abortPreflightedMigration t = (false, r) ∨
    ∃ a, r.activeByName.lookup t.canonicalNickname = some a ∧ a.transferInProgress = some t.transferId ∧
      r.abortPreflightedMigration t = (true, r.reopened t.canonicalNickname a) := by
  unfold abortPreflightedMigration
  cases ha : r.activeByName.lookup t.canonicalNickname with
  | none => exact Or.inl rfl
  | some a =>
    simp only
    split
    · exact Or.inl rfl
    rename_i hno
    simp only [not_or] at hno
    unfold reopenExact
    split
    · rename_i heq
      split at heq
      · cases heq
      · exact Or.inl rfl
    · rename_i heq
      split at heq
      · cases heq
        exact Or.inr ⟨a, rfl, not_not.1 hno.2.2.1, rfl⟩
      · cases heq

/-- An abort of the ticket that froze an identity succeeds. -/
theorem abortPreflightedMigration_of_describes {U : Unicode} {r : IdentityRegistry} (h : r.WellFormed U)
    {t : MigrationPreflight} {key : String} {a : ActiveIdentity} (ha : r.activeByName.lookup key = some a)
    (hd : Describes t key a) : r.abortPreflightedMigration t = (true, r.reopened key a) := by
  obtain ⟨rfl, hgen, hnick, htr, hgate, hper⟩ := hd
  have hword := ((h.active _ a ha).frozen _ htr).1
  unfold abortPreflightedMigration
  simp only [ha, hgen, hnick, htr, hgate, hper, ne_eq, not_true_eq_false, or_self, Bool.not_true, Bool.false_eq_true,
    if_false]
  have hre : (r.gate t.drainGate).reopenExact t.transferId =
      (true, { r.gate t.drainGate with state := opened }) := by
    unfold reopenExact
    rw [if_pos (hgate ▸ hword)]
  rw [hre]
  simp only [reopened, hgate, hgen]

/-- The edits of an abort. -/
theorem abortPreflightedMigration_edits {U : Unicode} (r : IdentityRegistry) (t : MigrationPreflight) :
    Edits U .plain r [] (r.abortPreflightedMigration t).2 := by
  rcases r.abortPreflightedMigration_cases t with h | ⟨a, ha, htr, h⟩
  · rw [h]
    exact Edits.refl r
  · rw [h]
    exact Edits.single (Edit.reopen t.canonicalNickname a t.transferId ha htr)

/-! ## Validation of a ticket -/

/-- What validating a ticket found: its credentials are validated against the current permit, which is the one the ticket was
minted for, and its source is frozen by it and drained. -/
structure Ready (r : IdentityRegistry) (t : MigrationPreflight) (now : Instant) (a : ActiveIdentity) (p : MigrationPermit) :
    Prop where
  validated : r.Validated t.destinationSession t.destinationIp t.userNo t.channelId t.token now t.canonicalNickname a p
  nickname : a.known.nickname = t.nickname
  channel : p.channel = t.channel
  generation : p.sourceGeneration = t.sourceGeneration
  session : p.sourceSession = t.sourceSession
  expiresAt : p.expiresAt = t.expiresAt
  transfer : a.transferInProgress = some t.transferId
  gate : a.operationGate = t.drainGate
  drained : (r.gate t.drainGate).activeOperations = 0

/-- A validated ticket is ready. -/
theorem validatePreflightedMigration_ok {r : IdentityRegistry} {t : MigrationPreflight} {now : Instant}
    (h : r.validatePreflightedMigration t now = .ok ()) :
    ∃ a p, r.Ready t now a p ∧ r.validateMigration t.destinationSession t.destinationIp t.userNo t.channelId t.token now =
      .ok ⟨t.canonicalNickname, a, p⟩ := by
  unfold validatePreflightedMigration at h
  cases hv : r.validateMigration t.destinationSession t.destinationIp t.userNo t.channelId t.token now with
  | error e => simp [hv] at h
  | ok v =>
    simp only [hv] at h
    split at h
    · cases h
    rename_i hm
    split at h
    · cases h
    rename_i hdr
    simp only [Bool.not_eq_true, Bool.not_eq_false', isDrained, decide_eq_true_eq] at hm hdr
    unfold ticketMatches at hm
    simp only [Bool.and_eq_true, decide_eq_true_eq] at hm
    obtain ⟨⟨⟨⟨⟨⟨⟨⟨⟨hkey, hnick⟩, -⟩, hchan⟩, hgen⟩, hses⟩, hexp⟩, htr⟩, hgate⟩, -⟩ := hm
    have hval := validateMigration_ok hv
    obtain ⟨key, a, p⟩ := v
    simp only at hkey
    subst hkey
    exact ⟨a, p, ⟨hval, hnick, hchan, hgen, hses, hexp, htr, hgate, hdr⟩, rfl⟩

/-! ## Preparing, locking and committing -/

/-- The candidate that a preparation makes. -/
def candidateFor (r : IdentityRegistry) (t : MigrationPreflight) (a : ActiveIdentity) (p : MigrationPermit) :
    MigrationCandidate where
  canonicalNickname := t.canonicalNickname
  operationGate := a.operationGate
  nextOperationGate := r.gates.next
  completion :=
    { binding :=
        { nickname := a.known.nickname
          userNo := a.known.userNo
          generation := ⟨r.nextGeneration⟩
          owner := t.destinationSession
          sourceIp := t.destinationIp
          channel := some p.channel }
      previousBinding := identityBinding a p.sourceSession
      previousIdentity := releasedIdentity a
      previousOwner := a.owner }

/-- The registry after a generation was made for a candidate. -/
def made (r : IdentityRegistry) : IdentityRegistry :=
  { r with gates := r.gates.alloc (.shared 0), nextGeneration := r.nextGeneration + 1 }

/-- A preparation makes a candidate of a ready ticket, or aborts the ticket, perhaps with a generation used up. -/
theorem preparePreflightedMigration_cases {U : Unicode} {r : IdentityRegistry} (h : r.WellFormed U) (t : MigrationPreflight)
    (now : Instant) (reserved : Bool) :
    (∃ e g, r.preparePreflightedMigration t now reserved =
      (.error e, ({ r with nextGeneration := r.nextGeneration + g }.abortPreflightedMigration t).2)) ∨
    ∃ a p, r.Ready t now a p ∧
      r.preparePreflightedMigration t now reserved = (.ok (r.candidateFor t a p), r.made) := by
  unfold preparePreflightedMigration prepareCandidate
  cases hv : r.validatePreflightedMigration t now with
  | error e => exact Or.inl ⟨e, 0, rfl⟩
  | ok _ =>
    obtain ⟨a, p, hready, hval⟩ := validatePreflightedMigration_ok hv
    simp only [hval]
    rcases allocateGeneration_cases h.generation_pos with hg | hg
    · simp only [hg]
      exact Or.inl ⟨_, 0, rfl⟩
    · simp only [hg]
      cases reserved with
      | false => exact Or.inl ⟨_, 1, rfl⟩
      | true => exact Or.inr ⟨a, p, hready, rfl⟩

/-- The edits of a preparation. -/
theorem preparePreflightedMigration_edits {U : Unicode} {r : IdentityRegistry} (h : r.WellFormed U) (t : MigrationPreflight)
    (now : Instant) (reserved : Bool) : Edits U .plain r [] (r.preparePreflightedMigration t now reserved).2 := by
  rcases preparePreflightedMigration_cases h t now reserved with ⟨e, g, he⟩ | ⟨a, p, -, he⟩
  · rw [he]
    have hburn : Edits U .plain r [] { r with nextGeneration := r.nextGeneration + g } :=
      Edits.single (Edit.burn 0 g 0 h.transferId_lt)
    exact hburn.trans (abortPreflightedMigration_edits _ t)
  · rw [he]
    exact Edits.single (Edit.make 0)

/-- The commit capability for a ticket and a candidate. -/
def commitFor (t : MigrationPreflight) (c : MigrationCandidate) : IdentityMigrationCommit where
  active := c.canonicalNickname
  transferId := t.transferId
  destinationSession := t.destinationSession
  channel := t.channel
  operationGate := c.operationGate
  nextOperationGate := c.nextOperationGate
  completion := c.completion

/-- The candidate was prepared for the same migration as the ticket. -/
structure Fits (c : MigrationCandidate) (t : MigrationPreflight) : Prop where
  key : c.canonicalNickname = t.canonicalNickname
  owner : c.completion.binding.owner = t.destinationSession
  userNo : c.completion.binding.userNo = t.userNo
  channel : c.completion.binding.channel = some t.channel
  generation : c.completion.previousBinding.generation = t.sourceGeneration
  gate : c.operationGate = t.drainGate

/-- A lock hands out the commit capability of a ready ticket and a candidate that fits it, or aborts the ticket. -/
theorem lockPreparedMigration_cases (r : IdentityRegistry) (t : MigrationPreflight) (c : MigrationCandidate)
    (now : Instant) :
    (∃ e, r.lockPreparedMigration t c now = (.error e, (r.abortPreflightedMigration t).2)) ∨
    ∃ a p, r.Ready t now a p ∧ Fits c t ∧ r.lockPreparedMigration t c now = (.ok (commitFor t c), r) := by
  unfold lockPreparedMigration
  cases hv : r.validatePreflightedMigration t now with
  | error e => exact Or.inl ⟨e, rfl⟩
  | ok _ =>
    obtain ⟨a, p, hready, -⟩ := validatePreflightedMigration_ok hv
    simp only
    split
    · exact Or.inl ⟨_, rfl⟩
    rename_i hfit
    simp only [not_or, not_not] at hfit
    obtain ⟨hkey, howner, huser, hchan, hgen, hgate⟩ := hfit
    have hact : r.activeByName.lookup c.canonicalNickname = some a := hkey ▸ hready.validated.active
    simp only [hact]
    exact Or.inr ⟨a, p, hready, ⟨hkey, howner, huser, hchan, hgen, hgate⟩, rfl⟩

/-- What a held commit capability relies on: its source is frozen by its transfer and drained, its destination has no identity,
and the generation it is about to publish is used nowhere. -/
structure Locked (r : IdentityRegistry) (g : IdentityMigrationCommit) (a : ActiveIdentity) : Prop where
  active : r.activeByName.lookup g.active = some a
  transfer : a.transferInProgress = some g.transferId
  gate : a.operationGate = g.operationGate
  previous : g.completion.previousBinding.generation = a.generation
  drained : (r.gate g.operationGate).activeOperations = 0
  unbound : r.sessionBindings.lookup g.destinationSession = none
  owner : g.completion.binding.owner = g.destinationSession
  channel : g.completion.binding.channel = some g.channel
  nickname : g.completion.binding.nickname = a.known.nickname
  userNo : g.completion.binding.userNo = a.known.userNo
  generation_pos : 0 < g.completion.binding.generation.get
  generation_lt : g.completion.binding.generation.get < r.nextGeneration
  active_ne : ∀ k b, r.activeByName.lookup k = some b →
    b.generation ≠ g.completion.binding.generation ∧ b.operationGate ≠ g.nextOperationGate
  deferred_ne : ∀ d ∈ r.deferredReleases,
    d.identity.generation ≠ g.completion.binding.generation ∧ d.operationGate ≠ g.nextOperationGate
  next_lt : g.nextOperationGate < r.gates.next
  next_open : (r.gate g.nextOperationGate).IsOpen
  next_drained : (r.gate g.nextOperationGate).activeOperations = 0

/-- The registry after a commit. -/
def published (r : IdentityRegistry) (g : IdentityMigrationCommit) (a : ActiveIdentity) (epoch : Nat) : IdentityRegistry :=
  { (r.setGate g.nextOperationGate { r.gate g.nextOperationGate with activatedUdpEpoch := epoch }).setGate a.operationGate
      { r.gate a.operationGate with state := retired } with
    activeByName := r.activeByName.insert g.active (publishedIdentity a g.completion.binding g.nextOperationGate)
    sessionBindings := r.sessionBindings.insert g.completion.binding.owner g.completion.binding }

/-- A commit of a held capability always succeeds: its source retires, and no assertion fires. -/
theorem commitMigration_of_locked {U : Unicode} {r : IdentityRegistry} (h : r.WellFormed U) {g : IdentityMigrationCommit}
    {a : ActiveIdentity} (hl : r.Locked g a) (epoch : Nat) :
    r.commitMigration g epoch = (.ok g.completion, r.published g a epoch) := by
  have hne : g.operationGate ≠ g.nextOperationGate := hl.gate ▸ (hl.active_ne _ a hl.active).2
  have hword : (r.gate g.operationGate).state = g.transferId.get :=
    hl.gate ▸ ((h.active _ a hl.active).frozen _ hl.transfer).1
  have hret : (r.gate g.operationGate).retireExact g.transferId =
      (true, { r.gate g.operationGate with state := retired }) := by
    unfold retireExact isDrained
    simp [hl.drained, hword]
  unfold commitMigration
  simp only [gate_setGate, if_neg hne, hret]
  have hact : ((r.setGate g.nextOperationGate { r.gate g.nextOperationGate with activatedUdpEpoch := epoch }).setGate
      g.operationGate { r.gate g.operationGate with state := retired }).activeByName.lookup g.active =
      some a := hl.active
  have hun : ((r.setGate g.nextOperationGate { r.gate g.nextOperationGate with activatedUdpEpoch := epoch }).setGate
      g.operationGate { r.gate g.operationGate with state := retired }).sessionBindings.lookup
      g.destinationSession = none := hl.unbound
  simp only [hact, hun]
  simp only [Option.isSome_none, Bool.false_eq_true, if_false, published, publishedIdentity, hl.gate, hl.owner, hl.channel]
  rfl

/-- The edit of a commit. -/
theorem published_edit {U : Unicode} {r : IdentityRegistry} {g : IdentityMigrationCommit} {a : ActiveIdentity}
    (hl : r.Locked g a) (epoch : Nat) : Edit U r (.published (releasedIdentity a)) (r.published g a epoch) :=
  Edit.publish g.active a g.transferId g.completion.binding g.nextOperationGate epoch hl.active hl.transfer
    (hl.gate ▸ hl.drained) (hl.owner ▸ hl.unbound) hl.nickname hl.userNo hl.generation_pos hl.generation_lt hl.active_ne
    hl.deferred_ne hl.next_lt hl.next_open hl.next_drained

/-- A capability dropped without a commit reopens its source. -/
theorem dropCommit_of_locked {U : Unicode} {r : IdentityRegistry} (h : r.WellFormed U) {g : IdentityMigrationCommit}
    {a : ActiveIdentity} (hl : r.Locked g a) : r.dropCommit g = r.reopened g.active a := by
  have hword : (r.gate g.operationGate).state = g.transferId.get :=
    hl.gate ▸ ((h.active _ a hl.active).frozen _ hl.transfer).1
  unfold dropCommit
  simp only [hl.active, hl.transfer, hl.gate, and_self, if_true, reopenExact, hword, reopened]

end IdentityRegistry

end P5136
