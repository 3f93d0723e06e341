import P5136.Identity.Frame

/-!
# Who holds what

The invariant of the registry among its leases: the count of a gate is what its live leases add up to, a lease, a candidate and
a held commit capability belong to the gate of their generation, and a frozen identity is described by the ticket that froze
it.
-/

namespace P5136

open IdentityRegistry

/-- A candidate's generation and gate exist and belong to no identity yet. -/
structure CandidateOk (r : IdentityRegistry) (c : MigrationCandidate) : Prop where
  known : ∃ known, r.knownByName.lookup c.canonicalNickname = some known ∧
    c.completion.binding.nickname = known.nickname ∧ c.completion.binding.userNo = known.userNo
  generation_pos : 0 < c.completion.binding.generation.get
  generation_lt : c.completion.binding.generation.get < r.nextGeneration
  next_lt : c.nextOperationGate < r.gates.next
  next_open : (r.gate c.nextOperationGate).IsOpen
  active_ne : ∀ k a, r.activeByName.lookup k = some a →
    a.generation ≠ c.completion.binding.generation ∧ a.operationGate ≠ c.nextOperationGate
  deferred_ne : ∀ d ∈ r.deferredReleases,
    d.identity.generation ≠ c.completion.binding.generation ∧ d.operationGate ≠ c.nextOperationGate

/-- A live lease belongs to the gate of its generation. -/
structure LeaseOk (r : IdentityRegistry) (l : IdentityOperationLease) : Prop where
  gate_lt : l.gate < r.gates.next
  generation_lt : l.binding.generation.get < r.nextGeneration
  active : ∀ k a, r.activeByName.lookup k = some a → l.binding.generation = a.generation → l.gate = a.operationGate
  deferred : ∀ d ∈ r.deferredReleases, l.binding.generation = d.identity.generation → l.gate = d.operationGate

/-- A ticket has used its transfer id up, and describes the identity it froze. -/
structure TicketOk (r : IdentityRegistry) (t : MigrationPreflight) : Prop where
  transferId_lt : t.transferId.get < r.nextTransferId
  describes : ∀ k a, r.activeByName.lookup k = some a → a.transferInProgress = some t.transferId → Describes t k a

/-- What the registry has handed out is in order. -/
structure Held (r : IdentityRegistry) (leases : List LiveLease) (tickets : List MigrationPreflight)
    (candidates : List MigrationCandidate) : Prop where
  count : ∀ id, (r.gate id).activeOperations = liveAt leases id
  lease : ∀ l ∈ leases, LeaseOk r l.lease
  ticket : ∀ t ∈ tickets, TicketOk r t
  frozen : ∀ k a x, r.activeByName.lookup k = some a → a.transferInProgress = some x → ∃ t ∈ tickets, t.transferId = x
  tickets_apart : tickets.Pairwise (fun t u => t.transferId.get < u.transferId.get)
  candidate : ∀ c ∈ candidates, CandidateOk r c
  candidate_lease : ∀ c ∈ candidates, ∀ l ∈ leases,
    l.lease.binding.generation ≠ c.completion.binding.generation ∧ l.lease.gate ≠ c.nextOperationGate
  candidates_apart : candidates.Pairwise (fun c d =>
    c.completion.binding.generation ≠ d.completion.binding.generation ∧ c.nextOperationGate ≠ d.nextOperationGate)

/-- A held commit capability can be committed, and its generation is used by nothing else. -/
def GuardOk (s : IdentitySystem) (g : IdentityMigrationCommit) : Prop :=
  (∃ a, s.registry.Locked g a) ∧
  (∀ l ∈ s.leases, l.lease.binding.generation ≠ g.completion.binding.generation ∧ l.lease.gate ≠ g.nextOperationGate) ∧
  ∀ c ∈ s.candidates, c.completion.binding.generation ≠ g.completion.binding.generation ∧
    c.nextOperationGate ≠ g.nextOperationGate

/-- The invariant of the registry among its leases. -/
structure Custody (U : Unicode) (s : IdentitySystem) : Prop where
  registry : s.registry.WellFormed U
  permitted : s.registry.PermittedExcept []
  held : Held s.registry s.leases s.tickets s.candidates
  guard : ∀ g, s.commit = some g → GuardOk s g

namespace CustodyAux

variable {r r' : IdentityRegistry} {leases : List LiveLease} {tickets : List MigrationPreflight}
  {candidates : List MigrationCandidate}

/-- A candidate stays in order across a change with a frame. -/
theorem candidateOk_frame {c : MigrationCandidate} (h : CandidateOk r c) (f : Frame r r') : CandidateOk r' c where
  known := by
    obtain ⟨kn, hk, hn, hu⟩ := h.known
    exact ⟨kn, f.known _ _ hk, hn, hu⟩
  generation_pos := h.generation_pos
  generation_lt := lt_of_lt_of_le h.generation_lt f.generation_le
  next_lt := lt_of_lt_of_le h.next_lt f.gate_le
  next_open := by
    rw [f.spare c.nextOperationGate h.next_lt (fun k a ha => (h.active_ne k a ha).2) (fun d hd => (h.deferred_ne d hd).2)]
    exact h.next_open
  active_ne := by
    intro k a' ha'
    rcases f.active k a' ha' with ⟨a, ha, hg, hgt⟩ | ⟨hg, hgt⟩
    · rw [hg, hgt]
      exact h.active_ne k a ha
    · refine ⟨fun heq => ?_, fun heq => ?_⟩
      · have := h.generation_lt
        rw [← heq, hg] at this
        exact lt_irrefl _ this
      · have := h.next_lt
        rw [← heq, hgt] at this
        exact lt_irrefl _ this
  deferred_ne := by
    intro d hd
    rcases f.deferred d hd with hd | ⟨k, a, ha, hg, hgt⟩
    · exact h.deferred_ne d hd
    · rw [hg, hgt]
      exact h.active_ne k a ha

/-- A lease stays in order across a change with a frame. -/
theorem leaseOk_frame {l : IdentityOperationLease} (h : LeaseOk r l) (f : Frame r r') : LeaseOk r' l where
  gate_lt := lt_of_lt_of_le h.gate_lt f.gate_le
  generation_lt := lt_of_lt_of_le h.generation_lt f.generation_le
  active := by
    intro k a' ha' heq
    rcases f.active k a' ha' with ⟨a, ha, hg, hgt⟩ | ⟨hg, -⟩
    · exact (h.active k a ha (heq.trans hg)).trans hgt.symm
    · have := h.generation_lt
      rw [heq, hg] at this
      exact absurd this (lt_irrefl _)
  deferred := by
    intro d hd heq
    rcases f.deferred d hd with hd | ⟨k, a, ha, hg, hgt⟩
    · exact h.deferred d hd heq
    · exact (h.active k a ha (heq.trans hg)).trans hgt.symm

/-- A ticket stays in order across a change that only thaws. -/
theorem ticketOk_thaws {t : MigrationPreflight} (h : TicketOk r t) (hle : r.nextTransferId ≤ r'.nextTransferId)
    (f : Thaws r r') : TicketOk r' t where
  transferId_lt := lt_of_lt_of_le h.transferId_lt hle
  describes := by
    intro k a' ha' ht'
    obtain ⟨a, ha, ht, hk, hg, hgt, hp⟩ := f k a' _ ha' ht'
    obtain ⟨h1, h2, h3, -, h5, h6⟩ := h.describes k a ha ht
    exact ⟨h1, hg.trans h2, hk ▸ h3, ht', hgt.trans h5, hp ▸ h6⟩

/-- The counts follow the live leases across a change with a frame. -/
theorem count_frame (h : Held r leases tickets candidates) (f : Frame r r') :
    ∀ id, (r'.gate id).activeOperations = liveAt leases id := by
  intro id
  rcases f.count id with hc | ⟨hid, hc⟩
  · rw [hc]
    exact h.count id
  · rw [hc, liveAt_eq_zero]
    intro l hl heq
    have := (h.lease l hl).gate_lt
    rw [heq, hid] at this
    exact lt_irrefl _ this

/-- What is handed out stays in order across a change with a frame that only thaws. -/
theorem held_frame (h : Held r leases tickets candidates) (f : Frame r r') (th : Thaws r r') :
    Held r' leases tickets candidates where
  count := count_frame h f
  lease := fun l hl => leaseOk_frame (h.lease l hl) f
  ticket := fun t ht => ticketOk_thaws (h.ticket t ht) f.transferId_le th
  frozen := by
    intro k a' x ha' hx
    obtain ⟨a, ha, hxa, -⟩ := th k a' x ha' hx
    exact h.frozen k a x ha hxa
  tickets_apart := h.tickets_apart
  candidate := fun c hc => candidateOk_frame (h.candidate c hc) f
  candidate_lease := h.candidate_lease
  candidates_apart := h.candidates_apart

/-- The edits of a run have a frame and only thaw. -/
theorem frame_thaws {U : Unicode} {L : Licence} {l : EditLabel} (hl : L.Allows l) (he : Edit U r l r') :
    Frame r r' ∧ Thaws r r' := by
  refine ⟨he.frame ?_ ?_, he.thaws ?_⟩
  · rintro id rfl
    exact hl
  · rintro i rfl
    exact hl
  · rintro t rfl
    exact hl

/-- What is handed out stays in order along a run of edits. -/
theorem held_edits {U : Unicode} {L : Licence} {is : List ReleasedIdentity} (h : Held r leases tickets candidates)
    (he : Edits U L r is r') : Held r' leases tickets candidates := by
  induction he with
  | refl => exact h
  | snoc _ hl he ih =>
    obtain ⟨f, th⟩ := frame_thaws hl he
    exact held_frame ih f th

/-- A run of edits never gives generations back. -/
theorem generation_le_edits {U : Unicode} {L : Licence} {is : List ReleasedIdentity} (he : Edits U L r is r') :
    r.nextGeneration ≤ r'.nextGeneration := by
  induction he with
  | refl => exact le_refl _
  | snoc _ hl he ih => exact le_trans ih (frame_thaws hl he).1.generation_le

end CustodyAux

/-! ## Generations that are over -/

/-- The generation is over: no identity, deferred release, candidate, held commit or lease has it, and it is used up. -/
structure Over (s : IdentitySystem) (g : IdentityGeneration) : Prop where
  used : g.get < s.registry.nextGeneration
  active : ∀ k a, s.registry.activeByName.lookup k = some a → a.generation ≠ g
  deferred : ∀ d ∈ s.registry.deferredReleases, d.identity.generation ≠ g
  candidate : ∀ c ∈ s.candidates, c.completion.binding.generation ≠ g
  guard : ∀ c, s.commit = some c → c.completion.binding.generation ≠ g
  lease : ∀ l ∈ s.leases, l.lease.binding.generation ≠ g

namespace CustodyAux

/-- A generation that is over stays so across a change of the registry with a frame. -/
theorem over_frame {s : IdentitySystem} {g : IdentityGeneration} {r r' : IdentityRegistry}
    (h : Over { s with registry := r } g) (f : Frame r r') : Over { s with registry := r' } g where
  used := lt_of_lt_of_le h.used f.generation_le
  active := by
    intro k a' ha'
    rcases f.active k a' ha' with ⟨a, ha, hg, -⟩ | ⟨hg, -⟩
    · rw [hg]
      exact h.active k a ha
    · rintro rfl
      have hused : a'.generation.get < r.nextGeneration := h.used
      rw [hg] at hused
      exact lt_irrefl _ hused
  deferred := by
    intro d hd
    rcases f.deferred d hd with hd | ⟨k, a, ha, hg, -⟩
    · exact h.deferred d hd
    · rw [hg]
      exact h.active k a ha
  candidate := h.candidate
  guard := h.guard
  lease := h.lease

/-- A generation that is over stays so along a run of edits. -/
theorem over_edits {U : Unicode} {L : Licence} {s : IdentitySystem} {g : IdentityGeneration} {r r' : IdentityRegistry}
    {is : List ReleasedIdentity} (he : Edits U L r is r') (h : Over { s with registry := r } g) :
    Over { s with registry := r' } g := by
  induction he with
  | refl => exact h
  | snoc _ hl he ih => exact over_frame ih (frame_thaws hl he).1

/-- A retired generation is over: its gate is drained, so no lease of it is left. -/
theorem over_retire {U : Unicode} {s : IdentitySystem} {r r' : IdentityRegistry} {i : ReleasedIdentity}
    (hr : r.WellFormed U) (h : Held r s.leases s.tickets s.candidates) (hc : s.commit = none)
    (he : Edit U r (.released i) r') : Over { s with registry := r' } i.generation := by
  cases he with
  | retire pre post d hd hcount =>
    have hmem : d ∈ r.deferredReleases := by simp [hd]
    have hapart := hr.apart
    rw [hd] at hapart
    obtain ⟨-, h2, h3⟩ := List.pairwise_append.1 hapart
    have hnone := ne_of_liveAt_eq_zero ((h.count d.operationGate).symm.trans hcount)
    refine ⟨(hr.deferred d hmem).generation_lt, ?_, ?_, ?_, ?_, ?_⟩
    · intro k a ha heq
      exact (hr.deferred_ne d hmem k a ha).1 heq.symm
    · intro e he
      rcases List.mem_append.1 he with he | he
      · exact (h3 e he d List.mem_cons_self).2.1
      · exact ((List.pairwise_cons.1 h2).1 e he).2.1.symm
    · intro c hcm heq
      exact ((h.candidate c hcm).deferred_ne d hmem).1 heq.symm
    · intro c hcc
      rw [hc] at hcc
      cases hcc
    · intro l hl heq
      exact hnone l hl ((h.lease l hl).deferred d hmem heq)

/-- Every generation that a run of edits releases is over at its end. -/
theorem over_released {U : Unicode} {L : Licence} {s : IdentitySystem} {r r' : IdentityRegistry} {is : List ReleasedIdentity}
    (hr : r.WellFormed U) (h : Held r s.leases s.tickets s.candidates) (hc : s.commit = none) (he : Edits U L r is r') :
    ∀ i ∈ is, Over { s with registry := r' } i.generation := by
  induction he with
  | refl =>
    intro i hi
    cases hi
  | snoc hp hl he ih =>
    rename_i l
    intro i hi
    rcases List.mem_append.1 hi with hi | hi
    · exact over_frame (ih i hi) (frame_thaws hl he).1
    · cases l with
      | released j =>
        cases List.mem_singleton.1 hi
        exact over_retire (hp.wellFormed hr) (held_edits h hp) hc he
      | _ => cases hi

end CustodyAux

end P5136
