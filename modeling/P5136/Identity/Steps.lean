import P5136.Identity.Custody

/-!
# Every step keeps custody

For each call of the actor and each step of a lease: the invariant is kept, a generation that is over stays over, the
generations the step ends are over after it, and it yields no lease of a generation that was over.
-/

namespace P5136

open IdentityRegistry IdentitySystem IdentityOperationGate List CustodyAux LiveLease

/-- What every step does. -/
structure Sound (U : Unicode) (s : IdentitySystem) (e : IdentityEvent) (s' : IdentitySystem) : Prop where
  custody : Custody U s'
  generation_le : s.registry.nextGeneration ≤ s'.registry.nextGeneration
  stays : ∀ g, Over s g → Over s' g
  ended : ∀ g ∈ e.ended, Over s' g ∧ s'.leases = s.leases
  minted : ∀ l ∈ e.minted, ¬Over s l.binding.generation

namespace StepsAux

variable {U : Unicode} {s : IdentitySystem}

/-- The registry with another number of operations at a gate. -/
def recount (r : IdentityRegistry) (id : GateId) (n : Nat) : IdentityRegistry :=
  r.setGate id { r.gate id with activeOperations := n }

theorem gate_recount (r : IdentityRegistry) (id j : GateId) (n : Nat) :
    (recount r id n).gate j = if j = id then { r.gate id with activeOperations := n } else r.gate j := by
  unfold recount
  rw [gate_setGate]

/-- Counting changes the word of no gate. -/
theorem state_recount (r : IdentityRegistry) (id j : GateId) (n : Nat) :
    ((recount r id n).gate j).state = (r.gate j).state := by
  rw [gate_recount]
  split
  · rename_i h
    rw [h]
  · rfl

/-- Counting keeps the invariant of the registry. -/
theorem wellFormed_recount {r : IdentityRegistry} (h : r.WellFormed U) (id : GateId) (n : Nat) :
    (recount r id n).WellFormed U :=
  WellFormedAux.wellFormed_frame h ⟨h.names.canonical, h.names.name_of_known, h.names.known_of_name, h.names.userNo_lt⟩
    (fun _ _ hk => hk) rfl rfl (fun _ _ _ _ _ => rfl) (le_refl _) (le_refl _) (le_refl _) h.transferId_lt (le_refl _)
    (fun _ _ => state_recount _ _ _ _)

/-- Counting keeps what is handed out in order, when the live leases change with it. -/
theorem held_recount {r : IdentityRegistry} {leases : List LiveLease} {tickets : List MigrationPreflight}
    {candidates : List MigrationCandidate} (leases' : List LiveLease) (h : Held r leases tickets candidates) (id : GateId) (n : Nat)
    (hid : liveAt leases' id = n) (hne : ∀ j, j ≠ id → liveAt leases' j = liveAt leases j)
    (hl : ∀ l ∈ leases', LeaseOk r l.lease ∧ ∀ c ∈ candidates,
      l.lease.binding.generation ≠ c.completion.binding.generation ∧ l.lease.gate ≠ c.nextOperationGate) :
    Held (recount r id n) leases' tickets candidates where
  count := by
    intro j
    rw [gate_recount]
    split
    · rename_i hj
      rw [hj]
      exact hid.symm
    · rename_i hj
      rw [hne j hj]
      exact h.count j
  lease := fun l hlm => ⟨(hl l hlm).1.gate_lt, (hl l hlm).1.generation_lt, (hl l hlm).1.active, (hl l hlm).1.deferred⟩
  ticket := fun t ht => ⟨(h.ticket t ht).transferId_lt, (h.ticket t ht).describes⟩
  frozen := h.frozen
  tickets_apart := h.tickets_apart
  candidate := by
    intro c hc
    obtain ⟨h1, h2, h3, h4, h5, h6, h7⟩ := h.candidate c hc
    exact ⟨h1, h2, h3, h4, (state_recount r id _ n).trans h5, h6, h7⟩
  candidate_lease := fun c hc l hlm => (hl l hlm).2 c hc
  candidates_apart := h.candidates_apart

/-! ## Calls that edit the registry -/

/-- A call that is a run of edits and hands out nothing. -/
theorem sound_edits {L : Licence} (h : Custody U s) (hc : s.commit = none) {r' : IdentityRegistry}
    {is : List ReleasedIdentity} (he : Edits U L s.registry is r') (hp : r'.PermittedExcept []) {e : IdentityEvent}
    (hend : ∀ g ∈ e.ended, ∃ i ∈ is, i.generation = g) (hmint : e.minted = []) :
    Sound U s e { s with registry := r' } where
  custody := by
    refine ⟨he.wellFormed h.registry, hp, held_edits h.held he, ?_⟩
    intro g hg
    have hg : s.commit = some g := hg
    rw [hc] at hg
    cases hg
  generation_le := generation_le_edits he
  stays := fun g hg => over_edits (s := s) he hg
  ended := by
    intro g hg
    obtain ⟨i, hi, rfl⟩ := hend g hg
    exact ⟨over_released h.registry h.held hc he i hi, rfl⟩
  minted := by
    intro l hl
    rw [hmint] at hl
    cases hl

/-- An admission. -/
theorem sound_admits (h : Custody U s) (hc : s.commit = none)
    {x : Except IdentityError IdentityOperationLease × IdentityRegistry} (hx : s.registry.Admits x) {e : IdentityEvent}
    (hend : e.ended = []) (hmint : e.minted = okList x.1) :
    Sound U s e { s with registry := x.2, leases := withMinted s.leases x.1 } := by
  rcases hx with ⟨er, rfl⟩ | ⟨key, a, own, ha, ho, -, rfl⟩
  · have hs : { s with registry := s.registry, leases := withMinted s.leases (.error er) } = s := by
      simp [withMinted, okList]
    have hmint : e.minted = [] := hmint
    have hsound := sound_edits (e := e) (L := .plain) h hc (Edits.refl s.registry) h.permitted
      (by rw [hend]; intro g hg; cases hg) hmint
    show Sound U s e { s with registry := s.registry, leases := withMinted s.leases (.error er) }
    rw [hs]
    exact hsound
  · have hok := h.registry.active key a ha
    have hlease : LeaseOk s.registry ⟨a.operationGate, identityBinding a own⟩ := by
      refine ⟨hok.gate_lt, hok.generation_lt, ?_, ?_⟩
      · intro k b hb heq
        have hk := h.registry.generation_inj key a k b ha hb heq
        subst hk
        rw [ha] at hb
        cases hb
        rfl
      · intro d hd heq
        exact absurd heq.symm (h.registry.deferred_ne d hd key a ha).1
    have hlive : ∀ j, liveAt (withMinted s.leases (.ok ⟨a.operationGate, identityBinding a own⟩)) j =
        liveAt s.leases j + if a.operationGate = j then 1 else 0 := by
      intro j
      simp [withMinted, okList, liveAt_append, liveAt_cons, weight]
    have hheld := held_recount (withMinted s.leases (.ok ⟨a.operationGate, identityBinding a own⟩)) h.held
      a.operationGate ((s.registry.gate a.operationGate).activeOperations + 1)
      (by rw [hlive, if_pos rfl, h.held.count])
      (by
        intro j hj
        rw [hlive, if_neg (Ne.symm hj)]
        rfl)
      (by
        intro l hl
        rcases mem_append.1 hl with hl | hl
        · exact ⟨h.held.lease l hl, fun c hcm => h.held.candidate_lease c hcm l hl⟩
        · have hl : l = ⟨⟨a.operationGate, identityBinding a own⟩, []⟩ := by simpa [okList] using hl
          subst hl
          exact ⟨hlease, fun c hcm => (h.held.candidate c hcm).active_ne key a ha⟩)
    refine ⟨⟨wellFormed_recount h.registry _ _, h.permitted, hheld, ?_⟩, le_refl _, ?_, ?_, ?_⟩
    · intro g hg
      have hg : s.commit = some g := hg
      rw [hc] at hg
      cases hg
    · intro g hg
      refine ⟨hg.used, hg.active, hg.deferred, hg.candidate, hg.guard, ?_⟩
      intro l hl
      rcases mem_append.1 hl with hl | hl
      · exact hg.lease l hl
      · have hl : l = ⟨⟨a.operationGate, identityBinding a own⟩, []⟩ := by simpa [okList] using hl
        subst hl
        exact hg.active key a ha
    · rw [hend]
      intro g hg
      cases hg
    · rw [hmint]
      intro l hl hov
      have hl : l = ⟨a.operationGate, identityBinding a own⟩ := by simpa [okList] using hl
      subst hl
      exact hov.active key a ha rfl

/-! ## Calls of a migration -/

/-- No commit is held after a call that hands out none. -/
theorem guard_none {s' : IdentitySystem} (hc : s'.commit = none) : ∀ g, s'.commit = some g → GuardOk s' g := by
  intro g hg
  rw [hc] at hg
  cases hg

/-- A preflight. -/
theorem sound_preflight (h : Custody U s) (hc : s.commit = none) (d : SessionId) (ip : IpAddr) (u : UserNo) (ch : UInt16)
    (tok : MigrationToken) (now : Instant) :
    Sound U s (.preflight d ip u ch tok now (s.registry.preflightMigration d ip u ch tok now).1)
      { s with
        registry := (s.registry.preflightMigration d ip u ch tok now).2
        tickets := s.tickets ++ okList (s.registry.preflightMigration d ip u ch tok now).1 } := by
  rcases preflightMigration_cases h.registry d ip u ch tok now with ⟨er, he⟩ | ⟨key, a, p, hv, hnt, hlt, he⟩
  · rw [he]
    have hsound := sound_edits (e := .preflight d ip u ch tok now (.error er)) (L := .plain) h hc
      (Edits.refl s.registry) h.permitted (fun g hg => by cases hg) rfl
    simp only [okList, append_nil]
    exact hsound
  · rw [he]
    have hp : a.permit.isSome := by rw [hv.permit]; rfl
    have hedit := frozen_edit h.registry hv.active hp hnt hlt
    have hframe := hedit.frame (by simp) (by simp)
    -- the ticket describes the identity it froze
    have hdesc : Describes (s.registry.ticketFor d ip u ch tok key a p) key
        { a with transferInProgress := some ⟨s.registry.nextTransferId⟩ } := by
      refine ⟨rfl, hv.generation.symm, rfl, rfl, rfl, ?_⟩
      rw [hv.permit]
      simp [MigrationPermit.isExactFor, ticketFor, hv.userNo, hv.token]
    have hlook : (s.registry.frozen key a).activeByName.lookup key =
        some { a with transferInProgress := some ⟨s.registry.nextTransferId⟩ } := by
      simp [frozen]
    have hother : ∀ k b, k ≠ key → (s.registry.frozen key a).activeByName.lookup k = some b →
        s.registry.activeByName.lookup k = some b := by
      intro k b hk hb
      simp only [frozen, FiniteMap.lookup_insert, if_neg hk] at hb
      exact hb
    -- another identity is not frozen by the new transfer
    have hfresh : ∀ k b x, s.registry.activeByName.lookup k = some b → b.transferInProgress = some x →
        x.get < s.registry.nextTransferId := fun k b x hb hx => ((h.registry.active k b hb).frozen x hx).2.2.1
    refine ⟨⟨hedit.wellFormed h.registry, hedit.permitted (by simp) h.permitted, ?_, guard_none hc⟩,
      hframe.generation_le, ?_, ?_, ?_⟩
    · refine ⟨count_frame h.held hframe, fun l hl => leaseOk_frame (h.held.lease l hl) hframe, ?_, ?_,
        ?_, fun c hcm => candidateOk_frame (h.held.candidate c hcm) hframe, h.held.candidate_lease,
        h.held.candidates_apart⟩
      · intro t ht
        rcases mem_append.1 ht with ht | ht
        · have htok := h.held.ticket t ht
          refine ⟨Nat.lt_succ_of_lt htok.transferId_lt, ?_⟩
          intro k b hb hx
          by_cases hk : k = key
          · subst hk
            rw [hlook] at hb
            cases hb
            have : t.transferId = ⟨s.registry.nextTransferId⟩ := (Option.some.inj hx).symm
            have hlt' := htok.transferId_lt
            rw [this] at hlt'
            exact absurd hlt' (lt_irrefl _)
          · exact htok.describes k b (hother k b hk hb) hx
        · cases mem_singleton.1 ht
          refine ⟨Nat.lt_succ_self _, ?_⟩
          intro k b hb hx
          by_cases hk : k = key
          · subst hk
            rw [hlook] at hb
            cases hb
            exact hdesc
          · have := hfresh k b _ (hother k b hk hb) hx
            exact absurd this (lt_irrefl _)
      · intro k b x hb hx
        by_cases hk : k = key
        · subst hk
          rw [hlook] at hb
          cases hb
          exact ⟨_, mem_append_right _ mem_cons_self, Option.some.inj hx⟩
        · obtain ⟨t, ht, htx⟩ := h.held.frozen k b x (hother k b hk hb) hx
          exact ⟨t, mem_append_left _ ht, htx⟩
      · refine pairwise_append.2 ⟨h.held.tickets_apart, pairwise_singleton _ _, ?_⟩
        intro t ht t' ht'
        cases mem_singleton.1 ht'
        exact (h.held.ticket t ht).transferId_lt
    · intro g hg
      have := over_frame (s := s) hg hframe
      exact ⟨this.used, this.active, this.deferred, this.candidate, this.guard, this.lease⟩
    · intro g hg
      cases hg
    · intro l hl
      cases hl

/-- A preparation. -/
theorem sound_prepare (h : Custody U s) (hc : s.commit = none) (t : MigrationPreflight) (now : Instant) (reserved : Bool) :
    Sound U s (.prepare t now (s.registry.preparePreflightedMigration t now reserved).1)
      { s with
        registry := (s.registry.preparePreflightedMigration t now reserved).2
        candidates := s.candidates ++ okList (s.registry.preparePreflightedMigration t now reserved).1 } := by
  have hedits := preparePreflightedMigration_edits h.registry t now reserved
  have hsound := sound_edits (e := .prepare t now (s.registry.preparePreflightedMigration t now reserved).1) h hc hedits
    (hedits.permitted id h.permitted) (fun g hg => by cases hg) rfl
  rcases preparePreflightedMigration_cases h.registry t now reserved with ⟨er, g, he⟩ | ⟨a, p, hr, he⟩
  · rw [he] at hsound ⊢
    simp only [okList, append_nil]
    exact hsound
  · rw [he] at hsound ⊢
    simp only [okList]
    have hact := hr.validated.active
    have hok := h.registry.active _ a hact
    -- the candidate has the generation and the gate that were made last
    have hnew : CandidateOk s.registry.made (s.registry.candidateFor t a p) := by
      refine ⟨⟨a.known, hok.known, rfl, rfl⟩, h.registry.generation_pos, Nat.lt_succ_self _, Nat.lt_succ_self _, ?_, ?_, ?_⟩
      · show ((s.registry.gates.alloc _).gate s.registry.gates.next).state = _
        rw [GateArena.gate_alloc, if_pos rfl]
        rfl
      · intro k b hb
        have hbk := h.registry.active k b hb
        refine ⟨fun heq => ?_, fun heq => ?_⟩
        · have := hbk.generation_lt
          rw [heq] at this
          exact lt_irrefl _ this
        · have := hbk.gate_lt
          rw [heq] at this
          exact lt_irrefl _ this
      · intro d hd
        have hdk := h.registry.deferred d hd
        refine ⟨fun heq => ?_, fun heq => ?_⟩
        · have := hdk.generation_lt
          rw [heq] at this
          exact lt_irrefl _ this
        · have := hdk.gate_lt
          rw [heq] at this
          exact lt_irrefl _ this
    refine ⟨⟨hsound.custody.registry, hsound.custody.permitted, ?_, guard_none hc⟩, hsound.generation_le, ?_, ?_, ?_⟩
    · have hheld := hsound.custody.held
      refine ⟨hheld.count, hheld.lease, hheld.ticket, hheld.frozen, hheld.tickets_apart, ?_, ?_, ?_⟩
      · intro c hcm
        rcases mem_append.1 hcm with hcm | hcm
        · exact hheld.candidate c hcm
        · cases mem_singleton.1 hcm
          exact hnew
      · intro c hcm l hl
        rcases mem_append.1 hcm with hcm | hcm
        · exact hheld.candidate_lease c hcm l hl
        · cases mem_singleton.1 hcm
          have hlk := h.held.lease l hl
          refine ⟨fun heq => ?_, fun heq => ?_⟩
          · have := hlk.generation_lt
            rw [heq] at this
            exact lt_irrefl _ this
          · have := hlk.gate_lt
            rw [heq] at this
            exact lt_irrefl _ this
      · refine pairwise_append.2 ⟨hheld.candidates_apart, pairwise_singleton _ _, ?_⟩
        intro c hcm c' hcm'
        cases mem_singleton.1 hcm'
        have hck := h.held.candidate c hcm
        refine ⟨fun heq => ?_, fun heq => ?_⟩
        · have := hck.generation_lt
          rw [heq] at this
          exact lt_irrefl _ this
        · have := hck.next_lt
          rw [heq] at this
          exact lt_irrefl _ this
    · intro g hg
      have hov := hsound.stays g hg
      refine ⟨hov.used, hov.active, hov.deferred, ?_, hov.guard, hov.lease⟩
      intro c hcm
      rcases mem_append.1 hcm with hcm | hcm
      · exact hov.candidate c hcm
      · cases mem_singleton.1 hcm
        intro heq
        have := hg.used
        rw [← heq] at this
        exact lt_irrefl _ this
    · intro g hg
      cases hg
    · intro l hl
      cases hl

/-- A lock. -/
theorem sound_lock (h : Custody U s) (hc : s.commit = none) (t : MigrationPreflight) (pre post : List MigrationCandidate)
    (c : MigrationCandidate) (now : Instant) (hcand : s.candidates = pre ++ c :: post) :
    Sound U s (.lock t c now (s.registry.lockPreparedMigration t c now).1)
      { s with
        registry := (s.registry.lockPreparedMigration t c now).2
        candidates := pre ++ post
        commit := (okList (s.registry.lockPreparedMigration t c now).1).head? } := by
  have hsub : ∀ x ∈ pre ++ post, x ∈ s.candidates := by
    intro x hx
    rw [hcand]
    simp only [mem_append, mem_cons] at hx ⊢
    tauto
  have hmem : c ∈ s.candidates := by simp [hcand]
  have hdrop : ∀ r : IdentityRegistry, Held r s.leases s.tickets s.candidates → Held r s.leases s.tickets (pre ++ post) := by
    intro r hh
    refine ⟨hh.count, hh.lease, hh.ticket, hh.frozen, hh.tickets_apart, fun x hx => hh.candidate x (hsub x hx),
      fun x hx => hh.candidate_lease x (hsub x hx), ?_⟩
    have := hh.candidates_apart
    rw [hcand] at this
    exact this.sublist (Sublist.append_left (sublist_cons_self c post) pre)
  rcases s.registry.lockPreparedMigration_cases t c now with ⟨er, he⟩ | ⟨a, p, hr, hf, he⟩
  · have hedits := abortPreflightedMigration_edits (U := U) s.registry t
    have hsound := sound_edits (e := .lock t c now (.error er)) h hc hedits (hedits.permitted id h.permitted)
      (fun g hg => by cases hg) rfl
    rw [he]
    refine ⟨⟨hsound.custody.registry, hsound.custody.permitted, hdrop _ hsound.custody.held, guard_none rfl⟩,
      hsound.generation_le, ?_, ?_, ?_⟩
    · intro g hg
      have hov := hsound.stays g hg
      exact ⟨hov.used, hov.active, hov.deferred, fun x hx => hov.candidate x (hsub x hx), fun g' hg' => by (cases hg'),
        hov.lease⟩
    · intro g hg
      cases hg
    · intro l hl
      cases hl
  · rw [he]
    have hck := h.held.candidate c hmem
    have hact := hr.validated.active
    obtain ⟨kn, hkn, hnick, huser⟩ := hck.known
    have hka : kn = a.known := by
      rw [hf.key, (h.registry.active _ a hact).known] at hkn
      exact (Option.some.inj hkn).symm
    subst hka
    have hapart := h.held.candidates_apart
    rw [hcand] at hapart
    obtain ⟨-, h2, h3⟩ := pairwise_append.1 hapart
    have hactive : s.registry.activeByName.lookup c.canonicalNickname = some a := hf.key ▸ hact
    have hdrained : (s.registry.gate c.operationGate).activeOperations = 0 := hf.gate ▸ hr.drained
    have hlocked : s.registry.Locked (commitFor t c) a := {
      active := hactive
      transfer := hr.transfer
      gate := hr.gate.trans hf.gate.symm
      previous := hf.generation.trans (hr.generation.symm.trans hr.validated.generation)
      drained := hdrained
      unbound := hr.validated.unbound
      owner := hf.owner
      channel := hf.channel
      nickname := hnick
      userNo := huser
      generation_pos := hck.generation_pos
      generation_lt := hck.generation_lt
      active_ne := hck.active_ne
      deferred_ne := hck.deferred_ne
      next_lt := hck.next_lt
      next_open := hck.next_open
      next_drained := by
        rw [h.held.count]
        exact liveAt_eq_zero (fun l hl => (h.held.candidate_lease c hmem l hl).2) }
    refine ⟨⟨h.registry, h.permitted, hdrop _ h.held, ?_⟩, le_refl _, ?_, ?_, ?_⟩
    · intro g hg
      cases hg
      refine ⟨⟨a, hlocked⟩, h.held.candidate_lease c hmem, ?_⟩
      intro x hx
      rcases mem_append.1 hx with hx | hx
      · exact h3 x hx c mem_cons_self
      · have := (pairwise_cons.1 h2).1 x hx
        exact ⟨this.1.symm, this.2.symm⟩
    · intro g hg
      refine ⟨hg.used, hg.active, hg.deferred, fun x hx => hg.candidate x (hsub x hx), ?_, hg.lease⟩
      intro g' hg'
      cases hg'
      exact hg.candidate c hmem
    · intro g hg
      cases hg
    · intro l hl
      cases hl

/-- A commit: it succeeds, and the generation it replaced is over. -/
theorem sound_commit (h : Custody U s) (g : IdentityMigrationCommit) (epoch : Nat) (hg : s.commit = some g) :
    (s.registry.commitMigration g epoch).1 = .ok g.completion ∧
    Sound U s (.commit g (s.registry.commitMigration g epoch).1)
      { s with registry := (s.registry.commitMigration g epoch).2, commit := none } := by
  obtain ⟨⟨a, hl⟩, hlease, hcand⟩ := h.guard g hg
  have he := commitMigration_of_locked h.registry hl epoch
  rw [he]
  refine ⟨rfl, ?_⟩
  have hedit := published_edit (U := U) hl epoch
  have hne : g.nextOperationGate ≠ a.operationGate := (hl.active_ne _ a hl.active).2.symm
  have hdr : (s.registry.gate a.operationGate).activeOperations = 0 := hl.gate ▸ hl.drained
  -- what the publication does to the entries and the gates
  have hlook : ∀ k b, (s.registry.published g a epoch).activeByName.lookup k = some b →
      (k = g.active ∧ b = publishedIdentity a g.completion.binding g.nextOperationGate) ∨
      (k ≠ g.active ∧ s.registry.activeByName.lookup k = some b) := by
    intro k b hb
    simp only [published, FiniteMap.lookup_insert] at hb
    split at hb
    · rename_i hk
      cases hb
      exact Or.inl ⟨hk, rfl⟩
    · rename_i hk
      exact Or.inr ⟨hk, hb⟩
  have hgate : ∀ id, ((s.registry.published g a epoch).gate id).activeOperations =
      (s.registry.gate id).activeOperations := by
    intro id
    show (((s.registry.setGate _ _).setGate _ _).gate id).activeOperations = _
    rw [gate_setGate]
    split
    · rename_i hid
      rw [hid]
    · rw [gate_setGate]
      split
      · rename_i hid
        rw [hid]
      · rfl
  have hstate : ∀ id, id ≠ a.operationGate → ((s.registry.published g a epoch).gate id).state =
      (s.registry.gate id).state := by
    intro id hid
    show (((s.registry.setGate _ _).setGate _ _).gate id).state = _
    rw [gate_setGate, if_neg hid, gate_setGate]
    split
    · rename_i hid'
      rw [hid']
    · rfl
  have hnolease := ne_of_liveAt_eq_zero ((h.held.count a.operationGate).symm.trans hdr)
  have hover : Over { s with registry := s.registry.published g a epoch, commit := none } a.generation := by
    have hok := h.registry.active _ a hl.active
    refine ⟨hok.generation_lt, ?_, ?_, ?_, fun _ hc => by (cases hc), ?_⟩
    · intro k b hb heq
      rcases hlook k b hb with ⟨-, rfl⟩ | ⟨hk, hb⟩
      · exact (hl.active_ne _ a hl.active).1 heq.symm
      · exact hk (h.registry.generation_inj k b _ a hb hl.active heq)
    · intro d hd heq
      exact (h.registry.deferred_ne d hd _ a hl.active).1 heq
    · intro c hc heq
      exact ((h.held.candidate c hc).active_ne _ a hl.active).1 heq.symm
    · intro l hlm heq
      exact hnolease l hlm ((h.held.lease l hlm).active _ a hl.active heq)
  refine ⟨⟨hedit.wellFormed h.registry, hedit.permitted (by simp) h.permitted, ?_, guard_none rfl⟩, le_refl _, ?_, ?_, ?_⟩
  · refine ⟨fun id => (hgate id).trans (h.held.count id), ?_, ?_, ?_, h.held.tickets_apart, ?_, h.held.candidate_lease,
      h.held.candidates_apart⟩
    · intro l hlm
      have hlk := h.held.lease l hlm
      refine ⟨hlk.gate_lt, hlk.generation_lt, ?_, hlk.deferred⟩
      intro k b hb heq
      rcases hlook k b hb with ⟨-, rfl⟩ | ⟨-, hb⟩
      · exact absurd heq (hlease l hlm).1
      · exact hlk.active k b hb heq
    · intro t ht
      refine ⟨(h.held.ticket t ht).transferId_lt, ?_⟩
      intro k b hb hx
      rcases hlook k b hb with ⟨-, rfl⟩ | ⟨-, hb⟩
      · cases hx
      · exact (h.held.ticket t ht).describes k b hb hx
    · intro k b x hb hx
      rcases hlook k b hb with ⟨-, rfl⟩ | ⟨-, hb⟩
      · cases hx
      · exact h.held.frozen k b x hb hx
    · intro c hc
      have hck := h.held.candidate c hc
      refine ⟨hck.known, hck.generation_pos, hck.generation_lt, hck.next_lt, ?_, ?_, hck.deferred_ne⟩
      · exact (hstate _ (hck.active_ne _ a hl.active).2.symm).trans hck.next_open
      · intro k b hb
        rcases hlook k b hb with ⟨-, rfl⟩ | ⟨-, hb⟩
        · exact ⟨(hcand c hc).1.symm, (hcand c hc).2.symm⟩
        · exact hck.active_ne k b hb
  · intro gen hov
    refine ⟨hov.used, ?_, hov.deferred, hov.candidate, fun _ hc => by (cases hc), hov.lease⟩
    intro k b hb
    rcases hlook k b hb with ⟨-, rfl⟩ | ⟨-, hb⟩
    · exact hov.guard g hg
    · exact hov.active k b hb
  · intro gen hgen
    have hgen : gen = g.completion.previousBinding.generation := by simpa [IdentityEvent.ended, okList] using hgen
    rw [hgen, hl.previous]
    exact ⟨hover, rfl⟩
  · intro l hlm
    cases hlm

/-- A commit capability dropped without a commit. -/
theorem sound_dropCommit (h : Custody U s) (g : IdentityMigrationCommit) (hg : s.commit = some g) :
    Sound U s .dropCommit { s with registry := s.registry.dropCommit g, commit := none } := by
  obtain ⟨⟨a, hl⟩, -, -⟩ := h.guard g hg
  rw [dropCommit_of_locked h.registry hl]
  have hedit := Edit.reopen (U := U) g.active a g.transferId hl.active hl.transfer
  obtain ⟨hframe, hthaws⟩ := frame_thaws (L := .plain) (l := .quiet) trivial hedit
  refine ⟨⟨hedit.wellFormed h.registry, hedit.permitted (by simp) h.permitted,
    held_frame h.held hframe hthaws, guard_none rfl⟩, hframe.generation_le, ?_, fun _ hx => by (cases hx), fun _ hx => by (cases hx)⟩
  intro gen hov
  have := over_frame (s := s) hov hframe
  exact ⟨this.used, this.active, this.deferred, this.candidate, fun _ hc => by (cases hc), this.lease⟩

/-- Two steps as one: what the second one ends, the two end. -/
theorem sound_trans {s₁ s₂ : IdentitySystem} {e₁ e₂ e : IdentityEvent} (h₁ : Sound U s e₁ s₁) (h₂ : Sound U s₁ e₂ s₂)
    (hleases : s₁.leases = s.leases) (hend : e.ended = e₂.ended) (hmint : e.minted = []) : Sound U s e s₂ where
  custody := h₂.custody
  generation_le := le_trans h₁.generation_le h₂.generation_le
  stays := fun g hg => h₂.stays g (h₁.stays g hg)
  ended := by
    intro g hg
    obtain ⟨hov, hl⟩ := h₂.ended g (hend ▸ hg)
    exact ⟨hov, hl.trans hleases⟩
  minted := by
    intro l hl
    rw [hmint] at hl
    cases hl

/-- A step under another name that ends the same and mints nothing. -/
theorem sound_relabel {s' : IdentitySystem} {e e' : IdentityEvent} (h : Sound U s e s') (hend : e'.ended = e.ended)
    (hmint : e'.minted = []) : Sound U s e' s' where
  custody := h.custody
  generation_le := h.generation_le
  stays := h.stays
  ended := fun g hg => h.ended g (hend ▸ hg)
  minted := by
    intro l hl
    rw [hmint] at hl
    cases hl

/-- A ticket consumed at once: a preparation, a lock and a commit. -/
theorem sound_completePreflighted (h : Custody U s) (hc : s.commit = none) (t : MigrationPreflight) (now : Instant)
    (reserved : Bool) (epoch : Nat) :
    Sound U s (.completePreflighted t now (s.registry.completePreflightedMigrationAtUdpEpoch t now reserved epoch).1)
      { s with registry := (s.registry.completePreflightedMigrationAtUdpEpoch t now reserved epoch).2 } := by
  have hprep := sound_prepare h hc t now reserved
  unfold completePreflightedMigrationAtUdpEpoch
  generalize s.registry.preparePreflightedMigration t now reserved = x at hprep
  obtain ⟨res, r₁⟩ := x
  cases res with
  | error er =>
    simp only [okList, append_nil] at hprep
    exact sound_relabel hprep rfl rfl
  | ok c =>
    simp only [okList] at hprep ⊢
    have hlock := sound_lock hprep.custody hc t s.candidates [] c now rfl
    simp only at hlock
    generalize r₁.lockPreparedMigration t c now = y at hlock
    obtain ⟨res, r₂⟩ := y
    cases res with
    | error er =>
      simp only [okList, append_nil, head?_nil] at hlock
      have hsound := sound_trans (e := .completePreflighted t now (.error er)) hprep hlock rfl rfl rfl
      rw [← hc] at hsound
      exact hsound
    | ok g =>
      simp only [okList, append_nil, head?_cons] at hlock
      obtain ⟨hok, hcommit⟩ := sound_commit hlock.custody g epoch rfl
      simp only at hok hcommit
      have hsound := sound_trans (e := .completePreflighted t now (r₂.commitMigration g epoch).1)
        (sound_trans (e := .completePreflighted t now (.error (.panic ""))) hprep hlock rfl rfl rfl) hcommit rfl rfl rfl
      rw [← hc] at hsound
      exact hsound

/-- A migration completed at once: a preflight and the consumption of its ticket. -/
theorem sound_complete (h : Custody U s) (hc : s.commit = none) (d : SessionId) (ip : IpAddr) (u : UserNo) (ch : UInt16)
    (tok : MigrationToken) (now : Instant) (reserved : Bool) :
    Sound U s (.complete d ip u ch tok now (s.registry.completeMigration d ip u ch tok now reserved).1)
      { s with
        registry := (s.registry.completeMigration d ip u ch tok now reserved).2
        tickets := s.tickets ++ okList (s.registry.preflightMigration d ip u ch tok now).1 } := by
  have hpre := sound_preflight h hc d ip u ch tok now
  unfold completeMigration
  generalize s.registry.preflightMigration d ip u ch tok now = x at hpre
  obtain ⟨res, r₁⟩ := x
  cases res with
  | error er => exact sound_relabel hpre rfl rfl
  | ok t =>
    simp only at hpre ⊢
    have hcomp := sound_completePreflighted hpre.custody hc t now reserved 0
    exact sound_trans (e := .complete d ip u ch tok now (r₁.completePreflightedMigrationAtUdpEpoch t now reserved 0).1) hpre
      hcomp rfl rfl rfl

/-! ## Steps of a lease -/

/-- A step of one lease: it stays or is dropped, and may yield another one; the count of its gate follows. -/
theorem sound_lease (h : Custody U s) {pre post : List LiveLease} {l : LiveLease} (hl : s.leases = pre ++ l :: post)
    (mid new : List LiveLease) (hmid : ∀ x ∈ mid ++ new, x.lease = l.lease) {n : Nat}
    (hn : n + l.weight = (s.registry.gate l.lease.gate).activeOperations + ((mid ++ new).map weight).sum)
    {e : IdentityEvent} (hend : e.ended = []) (hmint : ∀ x ∈ e.minted, x = l.lease) :
    Sound U s e { s with
      registry := recount s.registry l.lease.gate n
      leases := pre ++ mid ++ (post ++ new) } := by
  have hmem : l ∈ s.leases := by simp [hl]
  have hfrom : ∀ x ∈ pre ++ mid ++ (post ++ new), ∃ y ∈ s.leases, x.lease = y.lease := by
    intro x hx
    simp only [mem_append] at hx
    rcases hx with (hx | hx) | (hx | hx)
    · exact ⟨x, by simp [hl, hx], rfl⟩
    · exact ⟨l, hmem, hmid x (by simp [hx])⟩
    · exact ⟨x, by simp [hl, hx], rfl⟩
    · exact ⟨l, hmem, hmid x (by simp [hx])⟩
  -- the leases that replace `l` all have its gate
  have hsame : ∀ (xs : List LiveLease), (∀ x ∈ xs, x.lease = l.lease) → ∀ j,
      liveAt xs j = if l.lease.gate = j then (xs.map weight).sum else 0 := by
    intro xs hxs j
    induction xs with
    | nil => simp
    | cons x xs ih =>
      rw [liveAt_cons, ih (fun y hy => hxs y (mem_cons_of_mem _ hy)), hxs x mem_cons_self]
      split
      · simp
      · rfl
  have hlive : ∀ j, liveAt (pre ++ mid ++ (post ++ new)) j + (if l.lease.gate = j then l.weight else 0) =
      liveAt s.leases j + (if l.lease.gate = j then ((mid ++ new).map weight).sum else 0) := by
    intro j
    have h1 := hsame mid (fun x hx => hmid x (by simp [hx])) j
    have h2 := hsame new (fun x hx => hmid x (by simp [hx])) j
    rw [hl]
    simp only [liveAt_append, liveAt_cons, h1, h2, map_append, sum_append]
    split
    · omega
    · omega
  have hheld := held_recount (pre ++ mid ++ (post ++ new)) h.held l.lease.gate n
    (by
      have hj := hlive l.lease.gate
      simp only [if_true] at hj
      have hcount := h.held.count l.lease.gate
      omega)
    (by
      intro j hj
      have hj' := hlive j
      simp only [if_neg (Ne.symm hj), Nat.add_zero] at hj'
      exact hj')
    (by
      intro x hx
      obtain ⟨y, hy, hxy⟩ := hfrom x hx
      rw [hxy]
      exact ⟨h.held.lease y hy, fun c hcm => h.held.candidate_lease c hcm y hy⟩)
  refine ⟨⟨wellFormed_recount h.registry _ _, h.permitted, hheld, ?_⟩, le_refl _, ?_, ?_, ?_⟩
  · -- the gates of a held commit have no lease, so no step of a lease moves their counts
    intro g hg
    obtain ⟨⟨a, hk⟩, hlease, hcand⟩ := h.guard g hg
    have hop : g.operationGate ≠ l.lease.gate := by
      have := ne_of_liveAt_eq_zero ((h.held.count g.operationGate).symm.trans hk.drained) l hmem
      exact fun heq => this heq.symm
    have hnext : g.nextOperationGate ≠ l.lease.gate := fun heq => (hlease l hmem).2 heq.symm
    refine ⟨⟨a, ⟨hk.active, hk.transfer, hk.gate, hk.previous, ?_, hk.unbound, hk.owner, hk.channel, hk.nickname, hk.userNo,
      hk.generation_pos, hk.generation_lt, hk.active_ne, hk.deferred_ne, hk.next_lt, ?_, ?_⟩⟩, ?_, hcand⟩
    · show ((recount s.registry l.lease.gate n).gate g.operationGate).activeOperations = 0
      rw [gate_recount, if_neg hop]
      exact hk.drained
    · exact (state_recount _ _ _ _).trans hk.next_open
    · show ((recount s.registry l.lease.gate n).gate g.nextOperationGate).activeOperations = 0
      rw [gate_recount, if_neg hnext]
      exact hk.next_drained
    · intro x hx
      obtain ⟨y, hy, hxy⟩ := hfrom x hx
      rw [hxy]
      exact hlease y hy
  · intro gen hov
    refine ⟨hov.used, hov.active, hov.deferred, hov.candidate, hov.guard, ?_⟩
    intro x hx
    obtain ⟨y, hy, hxy⟩ := hfrom x hx
    rw [hxy]
    exact hov.lease y hy
  · rw [hend]
    intro g hg
    cases hg
  · intro x hx hov
    rw [hmint x hx] at hov
    exact hov.lease l hmem rfl

/-- Counting to the count that is there changes nothing. -/
theorem recount_self (r : IdentityRegistry) (id : GateId) : recount r id (r.gate id).activeOperations = r := by
  unfold recount
  exact setGate_self r id

end StepsAux

open StepsAux in
/-- Every step keeps custody. -/
theorem Step.sound {U : Unicode} {s s' : IdentitySystem} {e : IdentityEvent} (h : Custody U s) (hs : Step U s e s') :
    Sound U s e s' := by
  cases hs with
  | ensureKnown nickname hc =>
    have he : Edits U .plain s.registry [] (s.registry.ensureKnownUserNo U nickname).2 := by
      rcases ensureKnownUserNo_cases h.registry nickname with ⟨-, he⟩ | ⟨_, _, -, -, he, -⟩
      · exact he
      · exact he
    exact sound_edits h hc he (he.permitted id h.permitted) (fun g hg => by cases hg) rfl
  | claim session ip nickname epoch hc =>
    have he := (claimAt_cases h.registry session ip nickname epoch).1
    exact sound_edits h hc he (he.permitted id h.permitted) (fun g hg => by cases hg) rfl
  | admission session hc => exact sound_admits h hc (admitOperation_cases h.registry session) rfl rfl
  | admitUdp u epoch hc => exact sound_admits h hc (s.registry.admitUdpOperation_cases u epoch) rfl rfl
  | beginMigration session channel token now hc =>
    have he := beginMigration_edits h.registry session channel token now
    exact sound_edits h hc he (he.permitted id h.permitted) (fun g hg => by cases hg) rfl
  | preflight d ip u ch tok now hc => exact sound_preflight h hc d ip u ch tok now
  | prepare t now reserved hc _ => exact sound_prepare h hc t now reserved
  | lock t pre post c now hc _ hcand => exact sound_lock h hc t pre post c now hcand
  | commit g epoch hg => exact (sound_commit h g epoch hg).2
  | dropCommit g hg => exact sound_dropCommit h g hg
  | abort t hc _ =>
    have he := abortPreflightedMigration_edits (U := U) s.registry t
    exact sound_edits h hc he (he.permitted id h.permitted) (fun g hg => by cases hg) rfl
  | complete d ip u ch tok now reserved hc => exact sound_complete h hc d ip u ch tok now reserved
  | completePreflighted t now reserved epoch hc _ => exact sound_completePreflighted h hc t now reserved epoch
  | disconnect session now hc =>
    have he := disconnect_edits h.registry session now
    exact sound_edits h hc he (he.permitted id h.permitted) (fun g hg => mem_map.1 hg) rfl
  | expire now hc =>
    obtain ⟨he, hp⟩ := expireMigrations_edits h.registry h.permitted now
    exact sound_edits h hc he hp (fun g hg => mem_map.1 hg) rfl
  | collect hc =>
    obtain ⟨is, hperm, he, -⟩ := collectDrainedReleases_edits (U := U) (L := .plain) s.registry
    refine sound_edits h hc he (he.permitted id h.permitted) (fun g hg => ?_) rfl
    obtain ⟨i, hi, hig⟩ := mem_map.1 hg
    exact ⟨i, hperm.mem_iff.1 hi, hig⟩
  | drain hc =>
    obtain ⟨is, hperm, he, -⟩ := drainActive_edits (U := U) s.registry
    refine sound_edits h hc he (he.permitted id h.permitted) (fun g hg => ?_) rfl
    obtain ⟨i, hi, hig⟩ := mem_map.1 hg
    exact ⟨i, hperm.mem_iff.1 hi, hig⟩
  | retainCheck pre post l hl _ =>
    have hsound := sound_lease h hl [{ l with retaining := .checked :: l.retaining }] []
      (n := (s.registry.gate l.lease.gate).activeOperations) (e := .retaining) (by simp) (by simp [weight]) rfl
      (fun x hx => by cases hx)
    rw [recount_self] at hsound
    simpa using hsound
  | retainCount pre post l ps qs g hl hps hg =>
    have hg' : g = { s.registry.gate l.lease.gate with
        activeOperations := (s.registry.gate l.lease.gate).activeOperations + 1 } := by
      unfold increment at hg
      split at hg
      · cases hg
      · rename_i hadd
        obtain ⟨rfl, -⟩ := checkedAdd_eq_some.1 hadd
        cases hg
        rfl
    subst hg'
    have hsound := sound_lease h hl [{ l with retaining := ps ++ .counted :: qs }] []
      (n := (s.registry.gate l.lease.gate).activeOperations + 1) (e := .retaining) (by simp)
      (by simp [weight, hps]; omega) rfl (fun x hx => by cases hx)
    simpa [recount] using hsound
  | retainExhausted pre post l ps qs er g hl hps hg =>
    have hg' : g = s.registry.gate l.lease.gate := by
      unfold increment at hg
      split at hg
      · cases hg
        rfl
      · cases hg
    subst hg'
    have hsound := sound_lease h hl [{ l with retaining := ps ++ qs }] []
      (n := (s.registry.gate l.lease.gate).activeOperations) (e := .retaining) (by simp)
      (by simp [weight, hps]) rfl (fun x hx => by cases hx)
    rw [recount_self] at hsound
    rw [setGate_self]
    simpa using hsound
  | retainRetired pre post l ps qs hl hps _ =>
    have hpos : l.weight ≤ (s.registry.gate l.lease.gate).activeOperations := by
      rw [h.held.count, hl, liveAt_append, liveAt_cons, if_pos rfl]
      omega
    have hsound := sound_lease h hl [{ l with retaining := ps ++ qs }] []
      (n := (s.registry.gate l.lease.gate).activeOperations - 1) (e := .retaining) (by simp)
      (by simp [weight, hps] at hpos ⊢; omega) rfl (fun x hx => by cases hx)
    simpa [recount, release] using hsound
  | retained pre post l ps qs hl hps _ =>
    have hsound := sound_lease h hl [{ l with retaining := ps ++ qs }] [⟨l.lease, []⟩]
      (n := (s.registry.gate l.lease.gate).activeOperations) (e := .retained l.lease) (by simp)
      (by simp [weight, hps]; omega) rfl (fun x hx => mem_singleton.1 hx)
    rw [recount_self] at hsound
    simpa using hsound
  | dropped pre post l hl hempty =>
    have hpos : l.weight ≤ (s.registry.gate l.lease.gate).activeOperations := by
      rw [h.held.count, hl, liveAt_append, liveAt_cons, if_pos rfl]
      omega
    have hsound := sound_lease h hl [] [] (n := (s.registry.gate l.lease.gate).activeOperations - 1)
      (e := .dropped l.lease) (by simp) (by simp [weight, hempty] at hpos ⊢; omega) rfl
      (fun x hx => by cases hx)
    simpa [recount, release] using hsound

/-- The start is in order. -/
theorem custody_init {U : Unicode} {s : IdentitySystem} (h : IdentitySystem.Init s) : Custody U s := by
  cases h
  refine ⟨wellFormed_new U, ?_, ?_, fun g hg => by cases hg⟩
  · intro k a ha
    simp [new] at ha
  · refine ⟨fun id => rfl, ?_, ?_, ?_, Pairwise.nil, ?_, ?_, Pairwise.nil⟩
    · intro l hl
      cases hl
    · intro t ht
      cases ht
    · intro k a x ha
      simp [new] at ha
    · intro c hc
      cases hc
    · intro c hc
      cases hc

/-- Every reachable state is in order. -/
theorem custody_of_reachable {U : Unicode} {s : IdentitySystem} (h : Reachable U s) : Custody U s :=
  Transition.Reachable.invariant (I := fun s => Custody U s) (fun _ hi => custody_init hi)
    (fun _ _ _ hI hs => (Step.sound hI hs).custody) h

end P5136
