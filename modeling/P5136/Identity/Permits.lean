import P5136.Identity.Drain

/-!
# What each step takes over

A step that grants no permit leaves only permits that were there before, and a session keeps its binding until it disconnects
or the registry is drained.
-/

namespace P5136

open IdentityRegistry IdentitySystem

/-! ## What edits inherit -/

namespace IdentityRegistry

/-- What a change of the registry takes over: every permit was there before, and every session keeps its binding, except the
ones that are `gone`. -/
structure Inherits (gone : SessionId → Prop) (r r' : IdentityRegistry) : Prop where
  permit : ∀ k a' p, r'.activeByName.lookup k = some a' → a'.permit = some p →
    ∃ a, r.activeByName.lookup k = some a ∧ a.permit = some p
  bound : ∀ session b, ¬gone session → r.sessionBindings.lookup session = some b →
    r'.sessionBindings.lookup session = some b

namespace Inherits

variable {gone : SessionId → Prop} {r r₁ r₂ : IdentityRegistry}

theorem refl (r : IdentityRegistry) : Inherits gone r r where
  permit := fun _ a _ ha hp => ⟨a, ha, hp⟩
  bound := fun _ _ _ hb => hb

theorem trans (h : Inherits gone r r₁) (h' : Inherits gone r₁ r₂) : Inherits gone r r₂ where
  permit := by
    intro k a' p ha hp
    obtain ⟨a, ha, hp⟩ := h'.permit k a' p ha hp
    exact h.permit k a p ha hp
  bound := fun session b hg hb => h'.bound session b hg (h.bound session b hg hb)

/-- A change of a gate takes everything over. -/
theorem setGate (r : IdentityRegistry) (id : GateId) (g : IdentityOperationGate) : Inherits gone r (r.setGate id g) :=
  have h : Inherits gone r r := refl r
  ⟨h.permit, h.bound⟩

end Inherits

/-- Every edit but a grant takes the permits over, and every edit but an unbinding the bindings. -/
theorem Edit.inherits {U : Unicode} {r r' : IdentityRegistry} {l : EditLabel} (e : Edit U r l r')
    (hgrant : ∀ p, l ≠ .granted p) {gone : SessionId → Prop} (hgone : ∀ session, l = .unbound session → gone session) :
    Inherits gone r r' := by
  -- an inserted identity needs its own argument, every other one is as before
  have hinsert : ∀ (key : String) (b : ActiveIdentity), (∀ p, b.permit = some p →
      ∃ a, r.activeByName.lookup key = some a ∧ a.permit = some p) →
      ∀ k a' p, (r.activeByName.insert key b).lookup k = some a' → a'.permit = some p →
      ∃ a, r.activeByName.lookup k = some a ∧ a.permit = some p := by
    intro key b hb k a' p ha' hp
    rw [FiniteMap.lookup_insert] at ha'
    split at ha'
    · rename_i hkk
      subst hkk
      cases ha'
      exact hb p hp
    · exact ⟨a', ha', hp⟩
  have hbind : ∀ (session : SessionId) (b : IdentityBinding), r.sessionBindings.lookup session = none →
      ∀ session' b', r.sessionBindings.lookup session' = some b' →
      (r.sessionBindings.insert session b).lookup session' = some b' := by
    intro session b hnone session' b' hb'
    rw [FiniteMap.lookup_insert, if_neg, hb']
    rintro rfl
    rw [hnone] at hb'
    cases hb'
  have hrefl : Inherits gone r r := Inherits.refl r
  cases e with
  | know => exact ⟨hrefl.permit, hrefl.bound⟩
  | burn => exact ⟨hrefl.permit, hrefl.bound⟩
  | login key known session sourceIp epoch _ hs _ _ =>
    exact ⟨hinsert key _ (fun p hp => by cases hp), fun s' b' _ hb' => hbind session _ hs s' b' hb'⟩
  | grant => exact absurd rfl (hgrant _)
  | freeze key a ha _ _ _ => exact ⟨hinsert key _ (fun p hp => ⟨a, ha, hp⟩), hrefl.bound⟩
  | reopen key a t ha _ => exact ⟨hinsert key _ (fun p hp => ⟨a, ha, hp⟩), hrefl.bound⟩
  | make => exact ⟨hrefl.permit, hrefl.bound⟩
  | admission => exact ⟨hrefl.permit, hrefl.bound⟩
  | unbind session _ =>
    refine ⟨hrefl.permit, ?_⟩
    intro s' b' hg hb'
    show (r.sessionBindings.erase session).lookup s' = _
    rw [FiniteMap.lookup_erase, if_neg, hb']
    rintro rfl
    exact hg (hgone _ rfl)
  | disown key a ha _ => exact ⟨hinsert key _ (fun p hp => ⟨a, ha, hp⟩), hrefl.bound⟩
  | expire key a ha _ => exact ⟨hinsert key _ (fun p hp => by cases hp), hrefl.bound⟩
  | defer key a ha =>
    refine ⟨?_, hrefl.bound⟩
    intro k b p hb hp
    rw [FiniteMap.lookup_erase] at hb
    split at hb
    · cases hb
    · exact ⟨b, hb, hp⟩
  | retire => exact ⟨hrefl.permit, hrefl.bound⟩
  | publish key a t binding next epoch _ _ _ hs _ _ _ _ _ _ _ _ _ =>
    exact ⟨hinsert key _ (fun p hp => by cases hp), fun s' b' _ hb' => hbind _ _ hs s' b' hb'⟩

/-- A run of edits that grants nothing. -/
theorem Edits.inherits {U : Unicode} {L : Licence} {r r' : IdentityRegistry} {is : List ReleasedIdentity}
    (h : Edits U L r is r') (hL : ¬L.grants) : Inherits L.unbinds r r' := by
  induction h with
  | refl => exact Inherits.refl _
  | snoc _ hl he ih =>
    refine ih.trans (he.inherits ?_ ?_)
    · rintro p rfl
      exact hL hl
    · rintro session rfl
      exact hl

/-! ## What each call inherits -/

variable {U : Unicode} {r : IdentityRegistry} {gone : SessionId → Prop}

/-- A call that is a plain run of edits. -/
theorem inherits_plain {r' : IdentityRegistry} {is : List ReleasedIdentity} (h : Edits U .plain r is r') :
    Inherits gone r r' :=
  ⟨(h.inherits id).permit, fun session b _ hb => (h.inherits id).bound session b id hb⟩

/-- A preflight. -/
theorem inherits_preflight (h : r.WellFormed U) (d : SessionId) (ip : IpAddr) (u : UserNo) (ch : UInt16)
    (tok : MigrationToken) (now : Instant) : Inherits gone r (r.preflightMigration d ip u ch tok now).2 := by
  rcases preflightMigration_cases h d ip u ch tok now with ⟨e, he⟩ | ⟨key, a, p, hv, hnt, hlt, he⟩
  · rw [he]
    exact Inherits.refl r
  · rw [he]
    have hp : a.permit.isSome := by
      rw [hv.permit]
      rfl
    exact (frozen_edit h hv.active hp hnt hlt).inherits (fun _ hc => by cases hc) (fun _ hc => by cases hc)

/-- A lock. -/
theorem inherits_lock (t : MigrationPreflight) (c : MigrationCandidate) (now : Instant) :
    Inherits gone r (r.lockPreparedMigration t c now).2 := by
  rcases lockPreparedMigration_cases r t c now with ⟨e, he⟩ | ⟨a, p, -, -, he⟩
  · rw [he]
    exact inherits_plain (U := .ascii) (abortPreflightedMigration_edits r t)
  · rw [he]
    exact Inherits.refl r

/-- A commit of a held capability. -/
theorem inherits_commit {s : IdentitySystem} (h : Custody U s) {g : IdentityMigrationCommit} (hg : s.commit = some g)
    (epoch : Nat) : Inherits gone s.registry (s.registry.commitMigration g epoch).2 := by
  obtain ⟨⟨a, hl⟩, -⟩ := h.guard g hg
  rw [commitMigration_of_locked h.registry hl epoch]
  exact (published_edit (U := U) hl epoch).inherits (fun _ hc => by cases hc) (fun _ hc => by cases hc)

/-- A ticket consumed at once. -/
theorem inherits_completePreflighted {s : IdentitySystem} (h : Custody U s) (hc : s.commit = none) (t : MigrationPreflight)
    (now : Instant) (reserved : Bool) (epoch : Nat) :
    Inherits gone s.registry (s.registry.completePreflightedMigrationAtUdpEpoch t now reserved epoch).2 := by
  have hprep := StepsAux.sound_prepare h hc t now reserved
  have hin : Inherits gone s.registry (s.registry.preparePreflightedMigration t now reserved).2 :=
    inherits_plain (preparePreflightedMigration_edits h.registry t now reserved)
  unfold completePreflightedMigrationAtUdpEpoch
  generalize s.registry.preparePreflightedMigration t now reserved = x at hprep hin
  obtain ⟨res, r₁⟩ := x
  cases res with
  | error er => exact hin
  | ok c =>
    simp only [okList] at hprep hin ⊢
    have hlock := StepsAux.sound_lock hprep.custody hc t s.candidates [] c now rfl
    have hin₁ := hin.trans (inherits_lock t c now)
    simp only at hlock
    generalize r₁.lockPreparedMigration t c now = y at hlock hin₁
    obtain ⟨res, r₂⟩ := y
    cases res with
    | error er => exact hin₁
    | ok g => exact hin₁.trans (inherits_commit hlock.custody rfl epoch)

/-- A migration completed at once. -/
theorem inherits_complete {s : IdentitySystem} (h : Custody U s) (hc : s.commit = none) (d : SessionId) (ip : IpAddr)
    (u : UserNo) (ch : UInt16) (tok : MigrationToken) (now : Instant) (reserved : Bool) :
    Inherits gone s.registry (s.registry.completeMigration d ip u ch tok now reserved).2 := by
  have hpre := StepsAux.sound_preflight h hc d ip u ch tok now
  have hin : Inherits gone s.registry (s.registry.preflightMigration d ip u ch tok now).2 :=
    inherits_preflight h.registry d ip u ch tok now
  unfold completeMigration
  generalize s.registry.preflightMigration d ip u ch tok now = x at hpre hin
  obtain ⟨res, r₁⟩ := x
  cases res with
  | error er => exact hin
  | ok t => exact hin.trans (inherits_completePreflighted hpre.custody hc t now reserved 0)

/-- An admission. -/
theorem inherits_admits {x : Except IdentityError IdentityOperationLease × IdentityRegistry} (hx : r.Admits x) :
    Inherits gone r x.2 := by
  rcases hx with ⟨e, rfl⟩ | ⟨key, a, s, -, -, -, rfl⟩
  · exact Inherits.refl r
  · exact Inherits.setGate r _ _

end IdentityRegistry

/-! ## What each step inherits -/

namespace IdentityEvent

/-- The permit that the event grants. -/
def granted : IdentityEvent → List MigrationPermit
  | .beginMigration _ _ _ _ result => okList result
  | _ => []

/-- The sessions that the event may take their binding: the one that disconnects, or all of them at shutdown. -/
def Unbinds : IdentityEvent → SessionId → Prop
  | .disconnect session _ _, session' => session' = session
  | .drain _, _ => True
  | _, _ => False

/-- A step of a lease. -/
def IsLease : IdentityEvent → Prop
  | .retaining => True
  | .retained _ => True
  | .dropped _ => True
  | _ => False

end IdentityEvent

/-- The session of the permit owned the generation of its user. -/
def OwnedBySource (r : IdentityRegistry) (p : MigrationPermit) : Prop :=
  ∃ key a, r.activeByName.lookup key = some a ∧ a.owner = some p.sourceSession ∧ a.generation = p.sourceGeneration ∧
    a.known.userNo = p.userNo ∧ a.ownerIp = p.sourceIp

/-- The event grants the permit, to the session that owns the generation. -/
def Grants (s : IdentitySystem) (e : IdentityEvent) (p : MigrationPermit) : Prop :=
  (∃ now, e = .beginMigration p.sourceSession p.channel p.token now (.ok p)) ∧ OwnedBySource s.registry p

namespace PermitsAux

variable {U : Unicode} {s s' : IdentitySystem} {e : IdentityEvent}

/-- Every step but a grant takes the permits over, and the bindings it may not remove. -/
theorem inherits (h : Custody U s) (hs : Step U s e s') (he : e.granted = []) :
    Inherits e.Unbinds s.registry s'.registry := by
  cases hs with
  | ensureKnown nickname hc =>
    rcases ensureKnownUserNo_cases h.registry nickname with ⟨-, he⟩ | ⟨_, _, -, -, he, -⟩
    · exact inherits_plain he
    · exact inherits_plain he
  | claim session ip nickname epoch hc => exact inherits_plain (claimAt_cases h.registry session ip nickname epoch).1
  | admission session hc => exact inherits_admits (admitOperation_cases h.registry session)
  | admitUdp u epoch hc => exact inherits_admits (s.registry.admitUdpOperation_cases u epoch)
  | beginMigration session channel token now hc =>
    rcases beginMigration_cases h.registry session channel token now with ⟨er, hb⟩ | ⟨key, a, t, -, -, -, -, hb⟩
    · rw [hb]
      exact Inherits.refl _
    · rw [hb] at he
      cases he
  | preflight d ip u ch tok now hc => exact inherits_preflight h.registry d ip u ch tok now
  | prepare t now reserved hc _ => exact inherits_plain (preparePreflightedMigration_edits h.registry t now reserved)
  | lock t pre post c now hc _ _ => exact inherits_lock t c now
  | commit g epoch hg => exact inherits_commit h hg epoch
  | dropCommit g hg =>
    obtain ⟨⟨a, hl⟩, -⟩ := h.guard g hg
    rw [dropCommit_of_locked h.registry hl]
    exact (Edit.reopen (U := U) g.active a g.transferId hl.active hl.transfer).inherits (fun _ hc => by cases hc)
      (fun _ hc => by cases hc)
  | abort t hc _ => exact inherits_plain (abortPreflightedMigration_edits (U := U) s.registry t)
  | complete d ip u ch tok now reserved hc => exact inherits_complete h hc d ip u ch tok now reserved
  | completePreflighted t now reserved epoch hc _ => exact inherits_completePreflighted h hc t now reserved epoch
  | disconnect session now hc => exact (disconnect_edits h.registry session now).inherits id
  | expire now hc =>
    have hin := (expireMigrations_edits h.registry h.permitted now).1.inherits id
    exact ⟨hin.permit, fun session b _ hb => hin.bound session b id hb⟩
  | collect hc =>
    obtain ⟨is, -, he, -⟩ := collectDrainedReleases_edits (U := U) (L := .plain) s.registry
    exact inherits_plain he
  | drain hc =>
    obtain ⟨is, -, he, -⟩ := drainActive_edits (U := U) s.registry
    exact he.inherits id
  | retainCheck => exact Inherits.refl _
  | retained => exact Inherits.refl _
  | _ => exact Inherits.setGate _ _ _

/-- A permit after a step was there before, and no other one of its user is granted in the step; or the step grants it. -/
theorem permit_step (h : Custody U s) (hs : Step U s e s') {k : String} {a' : ActiveIdentity} {p : MigrationPermit}
    (ha' : s'.registry.activeByName.lookup k = some a') (hp : a'.permit = some p) :
    (∃ a, s.registry.activeByName.lookup k = some a ∧ a.permit = some p ∧ ∀ q ∈ e.granted, q.userNo ≠ p.userNo) ∨
    Grants s e p := by
  by_cases he : e.granted = []
  · obtain ⟨a, ha, hpa⟩ := (inherits h hs he).permit k a' p ha' hp
    refine Or.inl ⟨a, ha, hpa, ?_⟩
    rw [he]
    intro q hq
    cases hq
  · cases hs with
    | beginMigration session channel token now hc =>
      rcases beginMigration_cases h.registry session channel token now with ⟨er, hb⟩ | ⟨key, a, t, ha, ho, -, -, hb⟩
      · rw [hb] at he
        exact absurd rfl he
      · rw [hb] at ha' ⊢
        simp only [FiniteMap.lookup_insert] at ha'
        split at ha'
        · cases ha'
          cases hp
          exact Or.inr ⟨⟨now, rfl⟩, key, a, ha, ho, rfl, rfl, rfl⟩
        · -- another identity keeps its permit, which is for another user
          rename_i hne
          refine Or.inl ⟨a', ha', hp, ?_⟩
          intro q hq heq
          cases List.mem_singleton.1 hq
          have hok := h.registry.active k a' ha'
          have hoka := h.registry.active key a ha
          have huser : a.known.userNo = a'.known.userNo := heq.trans (hok.permit p hp).2.1
          have hname := h.registry.names.name_of_known key a.known hoka.known
          rw [huser, h.registry.names.name_of_known k a'.known hok.known] at hname
          exact hne (Option.some.inj hname)
    | _ => exact absurd rfl he

end PermitsAux

end P5136
