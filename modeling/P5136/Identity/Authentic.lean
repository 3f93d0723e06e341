import P5136.Identity.Permits

/-!
# Permits are authentic and used once

A migration completes only for the latest permit of its user, which the session that owned the generation was granted, and
with the channel, the token and the address of that permit. The generation it replaces is never authorized again.
-/

namespace P5136

open IdentityRegistry IdentitySystem Transition List

/-! ## Histories -/

/-- In the run `es` from `s₀` to `s` the permit was granted to the session that owned the generation of its user, and the user
was granted no permit after it. -/
def LatestGrant (U : Unicode) (s₀ : IdentitySystem) (es : List IdentityEvent) (s : IdentitySystem) (p : MigrationPermit) :
    Prop :=
  ∃ pre e post s₁ s₂, es = pre ++ e :: post ∧ Path (Step U) s₀ pre s₁ ∧ Step U s₁ e s₂ ∧
    Path (Step U) s₂ post s ∧ Grants s₁ e p ∧ ∀ x ∈ post, ∀ q ∈ x.granted, q.userNo ≠ p.userNo

/-- In the events `es`, the held commit capability was handed out for this ticket at this time, and only leases moved since. -/
def LockedFor (es : List IdentityEvent) (g : IdentityMigrationCommit) (t : MigrationPreflight) (now : Instant) : Prop :=
  ∃ pre c post, es = pre ++ .lock t c now (.ok g) :: post ∧ ∀ e ∈ post, e.IsLease

/-- After the events `es`, the event completes a migration for these credentials, which were last validated at this time: it
consumes them itself, or consumes a ticket for them, or commits a capability that was locked with such a ticket. -/
inductive CompletesFor (es : List IdentityEvent) : IdentityEvent → MigrationCredentials → Instant → MigrationCompletion → Prop
  | complete (d : SessionId) (ip : IpAddr) (u : UserNo) (ch : UInt16) (tok : MigrationToken) (now : Instant)
      (m : MigrationCompletion) : CompletesFor es (.complete d ip u ch tok now (.ok m)) ⟨d, ip, u, ch, tok⟩ now m
  | completePreflighted (t : MigrationPreflight) (now : Instant) (m : MigrationCompletion) :
      CompletesFor es (.completePreflighted t now (.ok m)) t.credentials now m
  | commit (g : IdentityMigrationCommit) (t : MigrationPreflight) (now : Instant) (m : MigrationCompletion) :
      LockedFor es g t now → CompletesFor es (.commit g (.ok m)) t.credentials now m

namespace AuthenticAux

variable {U : Unicode} {s₀ s s' : IdentitySystem} {es : List IdentityEvent} {e : IdentityEvent}

/-- Every permit of a run is the latest one granted to its user. -/
theorem latestGrant (h0 : IdentitySystem.Init s₀) (hp : Path (Step U) s₀ es s) :
    ∀ k a p, s.registry.activeByName.lookup k = some a → a.permit = some p → LatestGrant U s₀ es s p := by
  induction hp with
  | nil =>
    intro k a p ha
    cases h0
    simp [new] at ha
  | snoc hp hs ih =>
    rename_i s s' es e
    intro k a' p ha' hpa
    have hc : Custody U s := custody_of_reachable ⟨s₀, es, h0, hp⟩
    rcases PermitsAux.permit_step hc hs ha' hpa with ⟨a, ha, hpb, hq⟩ | hgrant
    · obtain ⟨pre, f, post, s₁, s₂, rfl, h1, h2, h3, h4, h5⟩ := ih k a p ha hpb
      refine ⟨pre, f, post ++ [e], s₁, s₂, by simp, h1, h2, h3.snoc hs, h4, ?_⟩
      intro x hx
      rcases mem_append.1 hx with hx | hx
      · exact h5 x hx
      · cases mem_singleton.1 hx
        exact hq
    · exact ⟨es, e, [], s, s', rfl, hp, hs, Path.nil _, hgrant, fun x hx => by cases hx⟩

/-- What a completion found does not depend on the gates. -/
theorem completed_setGate {r : IdentityRegistry} {cred : MigrationCredentials} {now : Instant} {key : String}
    {a : ActiveIdentity} {p : MigrationPermit} {m : MigrationCompletion} (h : r.Completed cred now key a p m) (id : GateId)
    (g : IdentityOperationGate) : (r.setGate id g).Completed cred now key a p m := by
  obtain ⟨⟨h1, h2, h3, h4, h5, h6, h7, h8, h9, h10, h11⟩, ho, hu, hc, hg⟩ := h
  exact ⟨⟨h1, h2, h3, h4, h5, h6, h7, h8, h9, h10, h11⟩, ho, hu, hc, hg⟩

/-- A held commit capability was locked with a ticket, and what its validation found is still there. -/
theorem lockedFor (h0 : IdentitySystem.Init s₀) (hp : Path (Step U) s₀ es s) :
    ∀ g, s.commit = some g → ∃ t now key a p, LockedFor es g t now ∧
      s.registry.Completed t.credentials now key a p g.completion := by
  induction hp with
  | nil =>
    intro g hg
    cases h0
    cases hg
  | snoc hp hs ih =>
    rename_i s s' es e
    -- a step of a lease changes gates only
    have hlease : ∀ (id : GateId) (gate : IdentityOperationGate), e.IsLease → ∀ g, s.commit = some g →
        ∃ t now key a p, LockedFor (es ++ [e]) g t now ∧
          (s.registry.setGate id gate).Completed t.credentials now key a p g.completion := by
      intro id gate he g hg
      obtain ⟨t, now, key, a, p, ⟨pre, c, post, rfl, hpost⟩, hcomp⟩ := ih g hg
      refine ⟨t, now, key, a, p, ⟨pre, c, post ++ [e], by simp, ?_⟩, completed_setGate hcomp id gate⟩
      intro x hx
      rcases mem_append.1 hx with hx | hx
      · exact hpost x hx
      · cases mem_singleton.1 hx
        exact he
    have hself : e.IsLease → ∀ g, s.commit = some g → ∃ t now key a p, LockedFor (es ++ [e]) g t now ∧
        s.registry.Completed t.credentials now key a p g.completion := by
      intro he
      have := hlease 0 (s.registry.gate 0) he
      rw [setGate_self] at this
      exact this
    cases hs
    case lock t pre post c now hc ht hcand =>
      intro g hg
      rcases lockPreparedMigration_cases s.registry t c now with ⟨er, he⟩ | ⟨a, p, hready, hfits, he⟩
      · rw [he] at hg
        cases hg
      · rw [he] at hg ⊢
        cases hg
        exact ⟨t, now, _, a, p, ⟨es, c, [], rfl, fun x hx => by cases hx⟩, completed_of_fits hready hfits⟩
    case commit => exact fun g hg => by cases hg
    case dropCommit => exact fun g hg => by cases hg
    case retainCheck => exact hself trivial
    case retained => exact hself trivial
    case retainCount => exact hlease _ _ trivial
    case retainExhausted => exact hlease _ _ trivial
    case retainRetired => exact hlease _ _ trivial
    case dropped => exact hlease _ _ trivial
    -- every other call needs that no capability is held, and hands out none
    all_goals
      have hc : s.commit = none := by assumption
      exact fun g hg => by cases hc.symm.trans hg

/-- A completion was made for credentials that the registry found valid. -/
theorem completesFor (h0 : IdentitySystem.Init s₀) (hp : Path (Step U) s₀ es s) (hs : Step U s e s')
    {m : MigrationCompletion} (hm : m ∈ e.completed) :
    ∃ cred now key a p, CompletesFor es e cred now m ∧ s.registry.Completed cred now key a p m := by
  have hc : Custody U s := custody_of_reachable ⟨s₀, es, h0, hp⟩
  cases hs with
  | commit g epoch hg =>
    obtain ⟨t, now, key, a, p, hlock, hcomp⟩ := lockedFor h0 hp g hg
    have hok := (StepsAux.sound_commit hc g epoch hg).1
    rw [hok] at hm ⊢
    cases mem_singleton.1 hm
    exact ⟨_, now, key, a, p, CompletesFor.commit g t now _ hlock, hcomp⟩
  | complete d ip u ch tok now reserved _ =>
    cases hres : (s.registry.completeMigration d ip u ch tok now reserved).1 with
    | error er =>
      rw [hres] at hm
      cases hm
    | ok m' =>
      rw [hres] at hm
      cases mem_singleton.1 hm
      obtain ⟨⟨key, a, p, hcomp⟩, -⟩ := completeMigration_ok hc.registry hres
      exact ⟨_, now, key, a, p, CompletesFor.complete d ip u ch tok now m, hcomp⟩
  | completePreflighted t now reserved epoch _ _ =>
    cases hres : (s.registry.completePreflightedMigrationAtUdpEpoch t now reserved epoch).1 with
    | error er =>
      rw [hres] at hm
      cases hm
    | ok m' =>
      rw [hres] at hm
      cases mem_singleton.1 hm
      obtain ⟨⟨a, p, hcomp⟩, -⟩ := completePreflighted_ok hc.registry hres
      exact ⟨_, now, _, a, p, CompletesFor.completePreflighted t now m, hcomp⟩
  | _ => cases hm

end AuthenticAux

/-! ## The theorem -/

/-- The event's completions, by the generations they replace. -/
def IdentityEvent.replaced (e : IdentityEvent) : List IdentityGeneration := e.completed.map (·.previousBinding.generation)

/-- A completion is authentic: its credentials are those of the latest permit of the user, which has not expired at the last
validation. -/
structure Authentic (U : Unicode) (s₀ : IdentitySystem) (es : List IdentityEvent) (s : IdentitySystem)
    (cred : MigrationCredentials) (now : Instant) (m : MigrationCompletion) (p : MigrationPermit) (a : ActiveIdentity) :
    Prop where
  granted : LatestGrant U s₀ es s p
  channelId : p.channel.channelId = cred.channelId
  token : p.token = cred.token
  sourceIp : p.sourceIp = cred.destinationIp
  userNo : p.userNo = cred.userNo
  inTime : now < p.expiresAt
  /-- The identity just before the completion. -/
  active : ∃ key, s.registry.nameByUserNo.lookup cred.userNo = some key ∧ s.registry.activeByName.lookup key = some a
  generation : p.sourceGeneration = a.generation
  owner : a.owner = none ∨ a.owner = some p.sourceSession
  destination : s.registry.sessionBindings.lookup cred.destination = none
  moved : m.binding.owner = cred.destination ∧ m.binding.userNo = cred.userNo ∧
    m.previousBinding.generation = p.sourceGeneration

/-- From this state on the generation is never authorized again and no lease of it is minted; and a session that is still bound
to it is refused for as long as its binding is in place, that is until it disconnects or the registry is drained. -/
def Refused (U : Unicode) (s : IdentitySystem) (gen : IdentityGeneration) : Prop :=
  ∀ es t, Path (Step U) s es t →
    (∀ session b, t.registry.authorize U session = .ok b → b.generation ≠ gen) ∧
    (∀ e ∈ es, ∀ l ∈ e.minted, l.binding.generation ≠ gen) ∧
    ∀ session b, s.registry.sessionBindings.lookup session = some b → b.generation = gen →
      (∀ e ∈ es, ¬e.Unbinds session) → t.registry.sessionBindings.lookup session = some b ∧
      (∃ er, t.registry.authorize U session = .error er) ∧ ∃ er, (t.registry.admitOperation U session).1 = .error er

namespace AuthenticAux

variable {U : Unicode} {s₀ s s' : IdentitySystem} {es : List IdentityEvent} {e : IdentityEvent}

/-- The generations replaced so far are over. -/
theorem replaced_over (h : Custody U s) (hs : Step U s e s') {g : IdentityGeneration} (hg : g ∈ e.replaced) :
    Over s' g ∧ ¬Over s g := by
  have hsound := Step.sound h hs
  have hended : g ∈ e.ended := by
    cases e with
    | commit => exact hg
    | complete => exact hg
    | completePreflighted => exact hg
    | _ => cases hg
  refine ⟨(hsound.ended g hended).1, ?_⟩
  -- the replaced generation was the one of an active identity
  intro hov
  obtain ⟨m, hm, rfl⟩ := mem_map.1 hg
  cases hs with
  | commit c epoch hc =>
    have hok := (StepsAux.sound_commit h c epoch hc).1
    obtain ⟨⟨a, hl⟩, -⟩ := h.guard c hc
    rw [hok] at hm
    cases mem_singleton.1 hm
    exact hov.active _ a hl.active hl.previous.symm
  | complete d ip u ch tok now reserved _ =>
    cases hres : (s.registry.completeMigration d ip u ch tok now reserved).1 with
    | error er =>
      rw [hres] at hm
      cases hm
    | ok m' =>
      rw [hres] at hm
      cases mem_singleton.1 hm
      obtain ⟨⟨key, a, p, hcomp⟩, -⟩ := completeMigration_ok h.registry hres
      exact hov.active _ a hcomp.validated.active hcomp.previous.symm
  | completePreflighted t now reserved epoch _ _ =>
    cases hres : (s.registry.completePreflightedMigrationAtUdpEpoch t now reserved epoch).1 with
    | error er =>
      rw [hres] at hm
      cases hm
    | ok m' =>
      rw [hres] at hm
      cases mem_singleton.1 hm
      obtain ⟨⟨a, p, hcomp⟩, -⟩ := completePreflighted_ok h.registry hres
      exact hov.active _ a hcomp.validated.active hcomp.previous.symm
  | _ => cases hm

/-- A generation is replaced at most once. -/
theorem ledger_replaced : Ledger (Step U) IdentityEvent.replaced (Custody U) Over (fun g g' => g ≠ g') where
  keep := fun _ _ _ h hs => (Step.sound h hs).custody
  past := fun _ _ _ g h hs hg => (Step.sound h hs).stays g hg
  record := fun _ _ _ _ h hs hg => (replaced_over h hs hg).1
  related := by
    rintro s e s' g g' h hs hg hg' rfl
    exact (replaced_over h hs hg').2 hg
  single := by
    intro s e s' h hs
    have hok : ∀ (x : Except (Fault IdentityError) MigrationCompletion),
        ((okList x).map (·.previousBinding.generation)).Pairwise (fun g g' => g ≠ g') := by
      intro x
      cases x with
      | error => exact Pairwise.nil
      | ok a => exact pairwise_singleton _ _
    cases e with
    | commit => exact hok _
    | complete => exact hok _
    | completePreflighted => exact hok _
    | _ => exact Pairwise.nil

/-- Along a path a session keeps its binding until it is unbound. -/
theorem bound_path (hp : Path (Step U) s es s') (h : Custody U s) {session : SessionId} {b : IdentityBinding}
    (hb : s.registry.sessionBindings.lookup session = some b) (hes : ∀ e ∈ es, ¬e.Unbinds session) :
    s'.registry.sessionBindings.lookup session = some b := by
  induction hp with
  | nil => exact hb
  | snoc hp hs ih =>
    rename_i t t' es e
    have hc : Custody U t := hp.keeps (I := Custody U) (fun _ _ _ hI hs => (Step.sound hI hs).custody) h
    have hb' := ih (fun x hx => hes x (mem_append_left _ hx))
    have he := hes e (mem_append_right _ mem_cons_self)
    by_cases hgr : e.granted = []
    · exact (PermitsAux.inherits hc hs hgr).bound session b he hb'
    · cases hs with
      | beginMigration session' channel token now _ =>
        rcases beginMigration_cases hc.registry session' channel token now with ⟨er, hbm⟩ | ⟨k, a, x, -, -, -, -, hbm⟩
        · rw [hbm]
          exact hb'
        · rw [hbm]
          exact hb'
      | _ => exact absurd rfl hgr

/-- A generation that is over is refused. -/
theorem refused_of_over (h : Custody U s) {gen : IdentityGeneration} (ho : Over s gen) : Refused U s gen := by
  intro es t hp
  obtain ⟨hc, hov, hmint⟩ := over_path hp h ho
  have hauth : ∀ session b, t.registry.authorize U session = .ok b → b.generation ≠ gen := by
    intro session b hb heq
    obtain ⟨a, ha, -, -, hba, -⟩ := authorize_ok hc.registry hb
    refine hov.active _ a ha ?_
    rw [← heq, hba]
    rfl
  refine ⟨hauth, hmint, ?_⟩
  intro session b hb hgen hes
  have hbt := bound_path hp h hb hes
  have hrefused : ∃ er, t.registry.authorize U session = .error er := by
    cases hx : t.registry.authorize U session with
    | error er => exact ⟨er, rfl⟩
    | ok b' =>
      obtain ⟨-, -, -, -, -, hb'⟩ := authorize_ok hc.registry hx
      rw [hbt] at hb'
      cases hb'
      exact absurd hgen (hauth session b hx)
  refine ⟨hbt, hrefused, ?_⟩
  obtain ⟨er, her⟩ := hrefused
  refine ⟨er, ?_⟩
  unfold admitOperation
  rw [her]

end AuthenticAux

open AuthenticAux in
/-- In every run, a migration completes only for the latest permit of its user and while it has not expired, the generation it
replaces is replaced by no other completion, and that generation is refused from then on. -/
theorem migration_permits_authentic (U : Unicode) {s₀ s s' : IdentitySystem} {es : List IdentityEvent} {e : IdentityEvent}
    (h0 : IdentitySystem.Init s₀) (hp : Path (Step U) s₀ es s) (hs : Step U s e s') :
    (∀ m ∈ e.completed,
      (∃ cred now p a, CompletesFor es e cred now m ∧ Authentic U s₀ es s cred now m p a) ∧
      Refused U s' m.previousBinding.generation) ∧
    ((es ++ [e]).flatMap IdentityEvent.replaced).Nodup := by
  have hc : Custody U s := custody_of_reachable ⟨s₀, es, h0, hp⟩
  refine ⟨?_, ((hp.snoc hs).pairwise_emitted ledger_replaced (custody_init h0)).1⟩
  intro m hm
  obtain ⟨cred, now, key, a, p, hfor, hcomp⟩ := completesFor h0 hp hs hm
  have hv := hcomp.validated
  refine ⟨⟨cred, now, p, a, hfor, latestGrant h0 hp key a p hv.active hv.permit, hv.channelId, hv.token, hv.sourceIp,
    hv.userNo, hv.inTime, ⟨key, hv.name, hv.active⟩, hv.generation, ?_, hv.unbound, hcomp.owner, hcomp.userNo,
    hcomp.previous.trans hv.generation.symm⟩, ?_⟩
  · cases ho : a.owner with
    | none => exact Or.inl rfl
    | some o => exact Or.inr (congrArg some (hv.owner o ho))
  · have hgen : m.previousBinding.generation ∈ e.replaced := mem_map.2 ⟨m, hm, rfl⟩
    exact refused_of_over (Step.sound hc hs).custody (replaced_over hc hs hgen).1

namespace AuthenticAux

open RepresentationAux

/-- The permitted identity after its migration to another session. -/
def moved : IdentitySystem :=
  { permitted with
    registry := (permitted.registry.completeMigration ⟨2⟩ (.v4 1) rider 3 moveToken 0 true).2
    tickets := okList (permitted.registry.preflightMigration ⟨2⟩ (.v4 1) rider 3 moveToken 0).1 }

/-- The event that completed it. -/
def moving : IdentityEvent :=
  .complete ⟨2⟩ (.v4 1) rider 3 moveToken 0 (permitted.registry.completeMigration ⟨2⟩ (.v4 1) rider 3 moveToken 0 true).1

theorem path_permitted : ∃ es, Path (Step .ascii) ⟨new, [], [], [], none⟩ es permitted := by
  have h1 := (Path.nil ⟨new, [], [], [], none⟩).snoc (Step.claim (U := .ascii) ⟨1⟩ (.v4 1) "Rider" 0 rfl)
  exact ⟨_, h1.snoc (Step.beginMigration ⟨1⟩ ⟨3, 4⟩ moveToken 0 rfl)⟩

theorem step_moving : Step .ascii permitted moving moved :=
  Step.complete ⟨2⟩ (.v4 1) rider 3 moveToken 0 true rfl

theorem completed_moving : ∃ m ∈ moving.completed, m.previousBinding.generation = ⟨1⟩ ∧ m.previousOwner = some ⟨1⟩ := by
  decide

/-- The former source session after it disconnected, and after it claimed another nickname. -/
def left : IdentitySystem := { moved with registry := (moved.registry.disconnect .ascii ⟨1⟩ 0).2 }

def reclaimed : IdentitySystem := { left with registry := (left.registry.claimAt .ascii ⟨1⟩ (.v4 1) "Racer" 0).2 }

end AuthenticAux

open AuthenticAux in
/-- A migration to another channel server: the old generation is refused. -/
theorem migration_permits_authentic_moved : Refused .ascii moved ⟨1⟩ := by
  obtain ⟨es, hp⟩ := path_permitted
  obtain ⟨m, hm, hgen, -⟩ := completed_moving
  rw [← hgen]
  exact ((migration_permits_authentic .ascii rfl hp step_moving).1 m hm).2

open AuthenticAux RepresentationAux in
/-- The former source session is not refused for ever: once it has disconnected it can claim another nickname. -/
theorem migration_source_refused_for_ever_false :
    ¬∀ (s₀ s s' t : IdentitySystem) (es es' : List IdentityEvent) (e : IdentityEvent), IdentitySystem.Init s₀ →
      Path (Step .ascii) s₀ es s → Step .ascii s e s' → Path (Step .ascii) s' es' t →
      ∀ m ∈ e.completed, ∀ source, m.previousOwner = some source → ∀ b, t.registry.authorize .ascii source ≠ .ok b := by
  intro h
  obtain ⟨es, hp⟩ := path_permitted
  obtain ⟨m, hm, -, hsource⟩ := completed_moving
  have h1 := (Path.nil moved).snoc (Step.disconnect (U := .ascii) ⟨1⟩ 0 rfl)
  have h2 : Path (Step .ascii) moved _ reclaimed := h1.snoc (Step.claim ⟨1⟩ (.v4 1) "Racer" 0 rfl)
  have hok : ∃ b, reclaimed.registry.authorize .ascii ⟨1⟩ = .ok b := ⟨_, rfl⟩
  obtain ⟨b, hb⟩ := hok
  exact h _ _ _ _ _ _ _ rfl hp step_moving h2 m hm ⟨1⟩ hsource b hb

end P5136
