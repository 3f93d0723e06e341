import P5136.Identity.Completions
import P5136.Identity.Steps

/-!
# The representation of the registry

What the tables of the registry mean to each other in every run: owners and bindings, active and waiting nicknames, permits of
identities without an owner, frozen gates and the tickets that can reopen them, and the numbers that are handed out once.
-/

namespace P5136

open IdentityRegistry IdentitySystem Transition List

/-! ## Numbers that are handed out -/

namespace IdentityEvent

/-- The generation that the event makes. -/
def generations : IdentityEvent → List IdentityGeneration
  | .claim _ _ _ _ result => (okList result).map (·.generation)
  | .prepare _ _ result => (okList result).map (·.completion.binding.generation)
  | .complete _ _ _ _ _ _ result => (okList result).map (·.binding.generation)
  | .completePreflighted _ _ result => (okList result).map (·.binding.generation)
  | _ => []

/-- The generation that becomes the one of an active identity. -/
def activated : IdentityEvent → List IdentityGeneration
  | .claim _ _ _ _ result => (okList result).map (·.generation)
  | .commit _ result => (okList result).map (·.binding.generation)
  | .complete _ _ _ _ _ _ result => (okList result).map (·.binding.generation)
  | .completePreflighted _ _ result => (okList result).map (·.binding.generation)
  | _ => []

end IdentityEvent

/-- The generation cannot be activated any more: it is used up, and no candidate or held commit has it. -/
structure Spent (s : IdentitySystem) (g : IdentityGeneration) : Prop where
  used : g.get < s.registry.nextGeneration
  candidate : ∀ c ∈ s.candidates, c.completion.binding.generation ≠ g
  guard : ∀ c, s.commit = some c → c.completion.binding.generation ≠ g

/-- What a step does to the generations that are made but not activated: the ones it leaves were there before or are new. -/
structure Stocked (s : IdentitySystem) (e : IdentityEvent) (s' : IdentitySystem) : Prop where
  made : ∀ g ∈ e.generations, s.registry.nextGeneration ≤ g.get ∧ g.get < s'.registry.nextGeneration
  candidate : ∀ c ∈ s'.candidates, c ∈ s.candidates ∨ c.completion.binding.generation ∈ e.generations
  guard : ∀ g, s'.commit = some g → s.commit = some g ∨ ∃ c ∈ s.candidates, c.completion = g.completion
  activated : ∀ g ∈ e.activated, s'.commit = none ∧ s'.candidates = s.candidates ∧
    (g ∈ e.generations ∨ ∃ c, s.commit = some c ∧ c.completion.binding.generation = g)

namespace RepresentationAux

variable {U : Unicode} {s s' : IdentitySystem} {e : IdentityEvent}

/-- A step that makes and activates nothing. -/
theorem stocked_quiet (hmade : e.generations = []) (hact : e.activated = []) (hcand : s'.candidates = s.candidates)
    (hguard : ∀ g, s'.commit = some g → s.commit = some g) : Stocked s e s' where
  made := by
    rw [hmade]
    intro g hg
    cases hg
  candidate := by
    rw [hcand]
    exact fun c hc => Or.inl hc
  guard := fun g hg => Or.inl (hguard g hg)
  activated := by
    rw [hact]
    intro g hg
    cases hg

/-- A step that makes a generation and activates it at once, while no commit is held. -/
theorem stocked_fresh (hcand : s'.candidates = s.candidates) (hc : s'.commit = none) (hact : e.activated = e.generations)
    (hmade : ∀ g ∈ e.generations, s.registry.nextGeneration ≤ g.get ∧ g.get < s'.registry.nextGeneration) :
    Stocked s e s' where
  made := hmade
  candidate := by
    rw [hcand]
    exact fun c hcm => Or.inl hcm
  guard := by
    rw [hc]
    intro g hg
    cases hg
  activated := by
    rw [hact]
    exact fun g hg => ⟨hc, hcand, Or.inl hg⟩

/-- Every step keeps stock. -/
theorem stocked (h : Custody U s) (hs : Step U s e s') : Stocked s e s' := by
  cases hs with
  | claim session ip nickname epoch hc =>
    refine stocked_fresh rfl hc rfl ?_
    intro g hg
    obtain ⟨b, hb, rfl⟩ := mem_map.1 hg
    have hok := (claimAt_cases h.registry session ip nickname epoch).2
    generalize s.registry.claimAt U session ip nickname epoch = x at hb hok
    obtain ⟨res, r'⟩ := x
    cases res with
    | error er => cases hb
    | ok b' =>
      cases mem_singleton.1 hb
      obtain ⟨hgen, -, -, hnext⟩ := hok b rfl
      rw [hgen]
      refine ⟨le_refl _, ?_⟩
      show s.registry.nextGeneration < r'.nextGeneration
      rw [show r'.nextGeneration = s.registry.nextGeneration + 1 from hnext]
      exact Nat.lt_succ_self _
  | prepare t now reserved hc ht =>
    rcases preparePreflightedMigration_cases h.registry t now reserved with ⟨er, g, he⟩ | ⟨a, p, hr, he⟩
    · rw [he]
      exact stocked_quiet rfl rfl (by simp [okList]) (fun _ hg => hg)
    · rw [he]
      refine ⟨?_, ?_, fun _ hg => Or.inl hg, fun _ hg => by cases hg⟩
      · intro g hg
        cases mem_singleton.1 hg
        exact ⟨le_refl _, Nat.lt_succ_self _⟩
      · intro c hcm
        rcases mem_append.1 hcm with hcm | hcm
        · exact Or.inl hcm
        · cases mem_singleton.1 hcm
          exact Or.inr (mem_singleton.2 rfl)
  | lock t pre post c now hc ht hcand =>
    have hsub : ∀ c' ∈ pre ++ post, c' ∈ s.candidates := by
      intro c' hc'
      rw [hcand]
      simp only [mem_append, mem_cons] at hc' ⊢
      tauto
    refine ⟨fun _ hg => (by cases hg), fun c' hc' => Or.inl (hsub c' hc'), ?_, fun _ hg => by cases hg⟩
    intro g hg
    rcases lockPreparedMigration_cases s.registry t c now with ⟨er, he⟩ | ⟨a, p, -, -, he⟩
    · rw [he] at hg
      cases hg
    · rw [he] at hg
      cases hg
      exact Or.inr ⟨c, by simp [hcand], rfl⟩
  | commit g epoch hg =>
    refine ⟨fun _ hx => (by cases hx), fun c hc => Or.inl hc, fun _ hx => (by cases hx), ?_⟩
    intro x hx
    obtain ⟨m, hm, rfl⟩ := mem_map.1 hx
    have hok := (StepsAux.sound_commit h g epoch hg).1
    rw [hok] at hm
    cases mem_singleton.1 hm
    exact ⟨rfl, rfl, Or.inr ⟨g, hg, rfl⟩⟩
  | complete d ip u ch tok now reserved hc =>
    refine stocked_fresh rfl hc rfl ?_
    intro g hg
    obtain ⟨m, hm, rfl⟩ := mem_map.1 hg
    cases hres : (s.registry.completeMigration d ip u ch tok now reserved).1 with
    | error er =>
      rw [hres] at hm
      cases hm
    | ok m' =>
      rw [hres] at hm
      cases mem_singleton.1 hm
      obtain ⟨-, hgen, hnext⟩ := completeMigration_ok h.registry hres
      rw [hgen]
      exact ⟨le_refl _, hnext⟩
  | completePreflighted t now reserved epoch hc ht =>
    refine stocked_fresh rfl hc rfl ?_
    intro g hg
    obtain ⟨m, hm, rfl⟩ := mem_map.1 hg
    cases hres : (s.registry.completePreflightedMigrationAtUdpEpoch t now reserved epoch).1 with
    | error er =>
      rw [hres] at hm
      cases hm
    | ok m' =>
      rw [hres] at hm
      cases mem_singleton.1 hm
      obtain ⟨-, hgen, hnext⟩ := completePreflighted_ok h.registry hres
      rw [hgen]
      exact ⟨le_refl _, hnext⟩
  | dropCommit g hg => exact stocked_quiet rfl rfl rfl (fun _ hx => by cases hx)
  | _ => exact stocked_quiet rfl rfl rfl (fun _ hg => hg)

/-- A generation that is spent stays so. -/
theorem spent_step {g : IdentityGeneration} (h : Custody U s) (hs : Step U s e s') (hg : Spent s g) : Spent s' g := by
  have hst := stocked h hs
  refine ⟨lt_of_lt_of_le hg.used (Step.sound h hs).generation_le, ?_, ?_⟩
  · intro c hc
    rcases hst.candidate c hc with hc | hc
    · exact hg.candidate c hc
    · rintro rfl
      exact absurd hg.used (not_lt.2 (hst.made _ hc).1)
  · intro c hc
    rcases hst.guard c hc with hc | ⟨d, hd, hdc⟩
    · exact hg.guard c hc
    · rw [← hdc]
      exact hg.candidate d hd

/-- A generation is spent once it is activated. -/
theorem spent_activated {g : IdentityGeneration} (h : Custody U s) (hs : Step U s e s') (hg : g ∈ e.activated) :
    Spent s' g := by
  have hst := stocked h hs
  obtain ⟨hc, hcand, hmade⟩ := hst.activated g hg
  refine ⟨?_, ?_, fun c hcc => by rw [hc] at hcc; cases hcc⟩
  · rcases hmade with hmade | ⟨c, hcc, rfl⟩
    · exact (hst.made g hmade).2
    · obtain ⟨⟨a, hl⟩, -⟩ := h.guard c hcc
      exact lt_of_lt_of_le hl.generation_lt (Step.sound h hs).generation_le
  · rw [hcand]
    intro d hd
    rcases hmade with hmade | ⟨c, hcc, rfl⟩
    · rintro rfl
      exact absurd (h.held.candidate d hd).generation_lt (not_lt.2 (hst.made _ hmade).1)
    · exact ((h.guard c hcc).2.2 d hd).1

/-- A generation that is spent is not activated. -/
theorem not_spent_of_activated {g : IdentityGeneration} (h : Custody U s) (hs : Step U s e s') (hg : g ∈ e.activated) :
    ¬Spent s g := by
  intro hsp
  have hst := stocked h hs
  rcases (hst.activated g hg).2.2 with hmade | ⟨c, hc, hcg⟩
  · exact absurd hsp.used (not_lt.2 (hst.made g hmade).1)
  · exact hsp.guard c hc hcg

/-- An event makes at most one generation, and activates at most one. -/
theorem at_most_one (R : IdentityGeneration → IdentityGeneration → Prop) (e : IdentityEvent) :
    e.generations.Pairwise R ∧ e.activated.Pairwise R := by
  have hok : ∀ {ε α : Type} (x : Except ε α) (f : α → IdentityGeneration), ((okList x).map f).Pairwise R := by
    intro ε α x f
    cases x with
    | error => exact Pairwise.nil
    | ok a => exact pairwise_singleton R _
  cases e with
  | claim => exact ⟨hok _ _, hok _ _⟩
  | prepare => exact ⟨hok _ _, Pairwise.nil⟩
  | commit => exact ⟨Pairwise.nil, hok _ _⟩
  | complete => exact ⟨hok _ _, hok _ _⟩
  | completePreflighted => exact ⟨hok _ _, hok _ _⟩
  | _ => exact ⟨Pairwise.nil, Pairwise.nil⟩

/-- The generations made so far are used up, and later ones are larger. -/
theorem ledger_generations : Ledger (Step U) IdentityEvent.generations (Custody U)
    (fun s g => g.get < s.registry.nextGeneration) (fun g g' => g.get < g'.get) where
  keep := fun _ _ _ h hs => (Step.sound h hs).custody
  past := fun _ _ _ _ h hs hg => lt_of_lt_of_le hg (Step.sound h hs).generation_le
  record := fun _ _ _ g h hs hg => ((stocked h hs).made g hg).2
  related := fun _ _ _ _ g' h hs hg hg' => lt_of_lt_of_le hg ((stocked h hs).made g' hg').1
  single := fun _ e _ _ _ => (at_most_one _ e).1

/-- The generations activated so far are spent, and later ones are others. -/
theorem ledger_activated : Ledger (Step U) IdentityEvent.activated (Custody U) Spent (fun g g' => g ≠ g') where
  keep := fun _ _ _ h hs => (Step.sound h hs).custody
  past := fun _ _ _ _ h hs hg => spent_step h hs hg
  record := fun _ _ _ _ h hs hg => spent_activated h hs hg
  related := by
    rintro s e s' g g' h hs hg hg' rfl
    exact not_spent_of_activated h hs hg' hg
  single := fun _ e _ _ _ => (at_most_one _ e).2

end RepresentationAux

/-! ## The tables -/

/-- The ticket that froze an identity can reopen it: its abort succeeds, the gate is open after it, and the identity is as it
was, but not frozen. -/
def CanReopen (r : IdentityRegistry) (key : String) (a : ActiveIdentity) (t : MigrationPreflight) : Prop :=
  (r.abortPreflightedMigration t).1 = true ∧ ((r.abortPreflightedMigration t).2.gate a.operationGate).IsOpen ∧
    (r.abortPreflightedMigration t).2.activeByName.lookup key = some { a with transferInProgress := none }

/-- The representation invariant, after the events `es`. -/
structure Representation (U : Unicode) (es : List IdentityEvent) (s : IdentitySystem) : Prop where
  /-- A session owns at most one active identity. -/
  owner_unique : ∀ k k' a a' session, s.registry.activeByName.lookup k = some a →
    s.registry.activeByName.lookup k' = some a' → a.owner = some session → a'.owner = some session → k = k'
  /-- The binding of an owner carries exactly the generation it owns. -/
  owner_bound : ∀ k a session, s.registry.activeByName.lookup k = some a → a.owner = some session →
    ∃ b, s.registry.sessionBindings.lookup session = some b ∧ b.generation = a.generation
  /-- A nickname that waits for its release is not active. -/
  deferred_inactive : ∀ d ∈ s.registry.deferredReleases, s.registry.activeByName.lookup d.canonicalNickname = none
  /-- A nickname waits at most once. -/
  deferred_once : (s.registry.deferredReleases.map (·.canonicalNickname)).Nodup
  /-- An identity without an owner has a permit for its own generation. -/
  ownerless_permit : ∀ k a, s.registry.activeByName.lookup k = some a → a.owner = none →
    ∃ p, a.permit = some p ∧ p.sourceGeneration = a.generation
  /-- A transfer is in progress exactly when it has frozen the gate. A transfer id is never zero. -/
  transfer_iff : ∀ k a t, s.registry.activeByName.lookup k = some a → t.get ≠ 0 →
    (a.transferInProgress = some t ↔ (s.registry.gate a.operationGate).isFrozenBy t = true)
  /-- Exactly one ticket was minted with the transfer in progress, and it can reopen the identity. -/
  reopen : ∀ k a t, s.registry.activeByName.lookup k = some a → a.transferInProgress = some t →
    ∃ ticket ∈ s.tickets, ticket.transferId = t ∧ (∀ x ∈ s.tickets, x.transferId = t → x = ticket) ∧
      CanReopen s.registry k a ticket
  /-- Generations are made in increasing order. -/
  generations_increase : (es.flatMap IdentityEvent.generations).Pairwise (fun g g' => g.get < g'.get)
  /-- No generation is activated twice. -/
  activated_once : (es.flatMap IdentityEvent.activated).Nodup
  /-- Transfer ids are minted in increasing order. -/
  transferIds_increase : s.tickets.Pairwise (fun t t' => t.transferId.get < t'.transferId.get)
  /-- User numbers and canonical nicknames are in bijection. -/
  users : ∀ u key, s.registry.nameByUserNo.lookup u = some key ↔
    ∃ known, s.registry.knownByName.lookup key = some known ∧ known.userNo = u
  canonical : ∀ key known, s.registry.knownByName.lookup key = some known → canonicalNicknameKey U known.nickname = key

namespace RepresentationAux

variable {U : Unicode} {s : IdentitySystem}

/-- The gate of an active identity is frozen by exactly the transfer in progress. -/
theorem transfer_iff {r : IdentityRegistry} (h : r.WellFormed U) {k : String} {a : ActiveIdentity}
    (ha : r.activeByName.lookup k = some a) {t : MigrationTransferId} (ht : t.get ≠ 0) :
    a.transferInProgress = some t ↔ (r.gate a.operationGate).isFrozenBy t = true := by
  have hok := h.active k a ha
  constructor
  · intro hta
    exact decide_eq_true (hok.frozen t hta).1
  · intro hf
    have hword : (r.gate a.operationGate).state = t.get := of_decide_eq_true hf
    cases hx : a.transferInProgress with
    | none => exact absurd (hword.symm.trans (hok.opened hx)) ht
    | some x =>
      have hxt : x.get = t.get := (hok.frozen x hx).1.symm.trans hword
      obtain ⟨x⟩ := x
      obtain ⟨t⟩ := t
      rw [show x = t from hxt]

/-- The ticket of the transfer in progress is the only one with its id, and can reopen the identity. -/
theorem reopen (h : Custody U s) {k : String} {a : ActiveIdentity} {t : MigrationTransferId}
    (ha : s.registry.activeByName.lookup k = some a) (hta : a.transferInProgress = some t) :
    ∃ ticket ∈ s.tickets, ticket.transferId = t ∧ (∀ x ∈ s.tickets, x.transferId = t → x = ticket) ∧
      CanReopen s.registry k a ticket := by
  obtain ⟨ticket, hmem, hid⟩ := h.held.frozen k a t ha hta
  refine ⟨ticket, hmem, hid, ?_, ?_⟩
  · intro x hx hxt
    have hnodup : (s.tickets.map (·.transferId)).Nodup := by
      refine pairwise_map.2 (h.held.tickets_apart.imp ?_)
      intro t u hlt heq
      rw [heq] at hlt
      exact lt_irrefl _ hlt
    exact inj_on_of_nodup_map hnodup hx hmem (hxt.trans hid.symm)
  · have hd := (h.held.ticket ticket hmem).describes k a ha (hid ▸ hta)
    have habort := abortPreflightedMigration_of_describes h.registry ha hd
    unfold CanReopen
    rw [habort]
    refine ⟨rfl, ?_, by simp [reopened]⟩
    show ((s.registry.setGate _ _).gate a.operationGate).state = _
    rw [gate_setGate, if_pos rfl]

end RepresentationAux

open RepresentationAux in
/-- Every run keeps the representation invariant. -/
theorem identity_representation (U : Unicode) {s₀ s : IdentitySystem} {es : List IdentityEvent} (h0 : Init s₀)
    (hp : Path (Step U) s₀ es s) : Representation U es s := by
  have hc : Custody U s := custody_of_reachable ⟨s₀, es, h0, hp⟩
  have hr := hc.registry
  refine ⟨?_, ?_, ?_, ?_, ?_, ?_, ?_, ?_, ?_, hc.held.tickets_apart, ?_, hr.names.canonical⟩
  · intro k k' a a' session ha ha' ho ho'
    exact hr.owner_inj ha ha' ho ho'
  · intro k a session ha ho
    exact ⟨_, (hr.active k a ha).bound session ho, rfl⟩
  · exact fun d hd => (hr.deferred d hd).inactive
  · exact pairwise_map.2 (hr.apart.imp fun h => h.1)
  · intro k a ha ho
    cases hpa : a.permit with
    | none => cases hc.permitted k a ha ho hpa
    | some p => exact ⟨p, rfl, ((hr.active k a ha).permit p hpa).1⟩
  · exact fun k a t ha ht => transfer_iff hr ha ht
  · exact fun k a t ha ht => reopen hc ha ht
  · exact (hp.pairwise_emitted ledger_generations (custody_init h0)).1
  · exact (hp.pairwise_emitted ledger_activated (custody_init h0)).1
  · intro u key
    refine ⟨hr.names.known_of_name u key, ?_⟩
    rintro ⟨known, hk, rfl⟩
    exact hr.names.name_of_known key known hk

namespace RepresentationAux

/-- The user number of the first nickname, and a token. -/
def rider : UserNo := ⟨1, Nat.one_ne_zero, NonZero.one_lt_32⟩

def moveToken : MigrationToken := ⟨5, by decide⟩

/-- After a login, after its permit, and after the preflight that freezes the identity. -/
def loggedIn : IdentitySystem := ⟨(new.claimAt .ascii ⟨1⟩ (.v4 1) "Rider" 0).2, [], [], [], none⟩

def permitted : IdentitySystem :=
  { loggedIn with registry := (loggedIn.registry.beginMigration .ascii ⟨1⟩ ⟨3, 4⟩ moveToken 0).2 }

def frozenRider : IdentitySystem :=
  { permitted with
    registry := (permitted.registry.preflightMigration ⟨2⟩ (.v4 1) rider 3 moveToken 0).2
    tickets := okList (permitted.registry.preflightMigration ⟨2⟩ (.v4 1) rider 3 moveToken 0).1 }

theorem reachable_loggedIn : Reachable .ascii loggedIn := by
  have h0 : Reachable .ascii ⟨new, [], [], [], none⟩ := Reachable.of_init rfl
  exact h0.snoc (Step.claim ⟨1⟩ (.v4 1) "Rider" 0 rfl)

/-- The run that froze it. -/
theorem path_frozenRider : ∃ es, es.length = 3 ∧ Path (Step .ascii) ⟨new, [], [], [], none⟩ es frozenRider := by
  have h1 := (Path.nil ⟨new, [], [], [], none⟩).snoc (Step.claim (U := .ascii) ⟨1⟩ (.v4 1) "Rider" 0 rfl)
  have h2 := h1.snoc (Step.beginMigration ⟨1⟩ ⟨3, 4⟩ moveToken 0 rfl)
  exact ⟨_, rfl, h2.snoc (Step.preflight ⟨2⟩ (.v4 1) rider 3 moveToken 0 rfl)⟩

end RepresentationAux

open RepresentationAux in
/-- A frozen identity: its one ticket can reopen it. -/
theorem identity_representation_frozen : ∃ es, es.length = 3 ∧ Representation .ascii es frozenRider := by
  obtain ⟨es, hl, hp⟩ := path_frozenRider
  exact ⟨es, hl, identity_representation .ascii rfl hp⟩

end P5136
