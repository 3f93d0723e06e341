import P5136.Identity.System

/-!
# What an edit leaves alone

An edit that publishes nothing changes the active identities within their generations, makes new ones only under the next
generation and gate, defers only what was active, and leaves the gates that belong to no identity: that is its `Frame`. And an
edit that freezes nothing leaves a frozen identity as it was, or reopens it: it only `Thaws`. The facts about leases, tickets
and candidates are kept by any such change.
-/

namespace P5136

namespace IdentityRegistry

/-- An active identity after an edit: the same generation as before, or the next one. -/
inductive Continues (r : IdentityRegistry) (k : String) (a' : ActiveIdentity) : Prop
  | same (a : ActiveIdentity) : r.activeByName.lookup k = some a → a'.generation = a.generation →
      a'.operationGate = a.operationGate → Continues r k a'
  | fresh : a'.generation.get = r.nextGeneration → a'.operationGate = r.gates.next → Continues r k a'

/-- An identity that is frozen after an edit was frozen by the same transfer before it, under the same permit. -/
def Thaws (r r' : IdentityRegistry) : Prop :=
  ∀ k a' t, r'.activeByName.lookup k = some a' → a'.transferInProgress = some t →
    ∃ a, r.activeByName.lookup k = some a ∧ a.transferInProgress = some t ∧ a'.known = a.known ∧
      a'.generation = a.generation ∧ a'.operationGate = a.operationGate ∧ a'.permit = a.permit

/-- What an edit leaves alone. -/
structure Frame (r r' : IdentityRegistry) : Prop where
  active : ∀ k a', r'.activeByName.lookup k = some a' → r.Continues k a'
  deferred : ∀ d ∈ r'.deferredReleases, d ∈ r.deferredReleases ∨
    ∃ k a, r.activeByName.lookup k = some a ∧ d.identity.generation = a.generation ∧ d.operationGate = a.operationGate
  known : ∀ k known, r.knownByName.lookup k = some known → r'.knownByName.lookup k = some known
  generation_le : r.nextGeneration ≤ r'.nextGeneration
  transferId_le : r.nextTransferId ≤ r'.nextTransferId
  gate_le : r.gates.next ≤ r'.gates.next
  count : ∀ id, (r'.gate id).activeOperations = (r.gate id).activeOperations ∨
    (id = r.gates.next ∧ (r'.gate id).activeOperations = 0)
  spare : ∀ id, id < r.gates.next → (∀ k a, r.activeByName.lookup k = some a → a.operationGate ≠ id) →
    (∀ d ∈ r.deferredReleases, d.operationGate ≠ id) → r'.gate id = r.gate id

namespace FrameAux

/-- An identity that is not changed continues. -/
theorem continues_refl {r : IdentityRegistry} {k : String} {a : ActiveIdentity} (ha : r.activeByName.lookup k = some a) :
    r.Continues k a :=
  Continues.same a ha rfl rfl

/-- After an insertion, the inserted identity has to continue; every other one does. -/
theorem continues_insert {r : IdentityRegistry} {key : String} {a' : ActiveIdentity} (h : r.Continues key a') :
    ∀ k b, (r.activeByName.insert key a').lookup k = some b → r.Continues k b := by
  intro k b hb
  rw [FiniteMap.lookup_insert] at hb
  split at hb
  · rename_i hkk
    subst hkk
    cases hb
    exact h
  · exact continues_refl hb

/-- Changing the gate of one identity touches no gate that belongs to none. -/
theorem spare_setGate {r : IdentityRegistry} {key : String} {a : ActiveIdentity} (ha : r.activeByName.lookup key = some a)
    (g : IdentityOperationGate) : ∀ id, (∀ k b, r.activeByName.lookup k = some b → b.operationGate ≠ id) →
    (r.setGate a.operationGate g).gate id = r.gate id := by
  intro id hid
  rw [gate_setGate, if_neg (fun h => hid key a ha h.symm)]

/-- A change of the word of a gate moves no count. -/
theorem count_setGate {r : IdentityRegistry} (i : GateId) (w : Nat) :
    ∀ id, ((r.setGate i { r.gate i with state := w }).gate id).activeOperations = (r.gate id).activeOperations := by
  intro id
  rw [gate_setGate]
  split
  · rename_i h
    rw [h]
  · rfl

/-- Making a gate adds one without operations. -/
theorem count_alloc {r : IdentityRegistry} (epoch : Nat) : ∀ id,
    ((r.gates.alloc (.shared epoch)).gate id).activeOperations = (r.gate id).activeOperations ∨
    (id = r.gates.next ∧ ((r.gates.alloc (.shared epoch)).gate id).activeOperations = 0) := by
  intro id
  rw [GateArena.gate_alloc]
  split
  · rename_i h
    exact Or.inr ⟨h, rfl⟩
  · exact Or.inl rfl

/-- Making a gate touches no other one. -/
theorem gate_alloc_lt {r : IdentityRegistry} (epoch : Nat) {id : GateId} (h : id < r.gates.next) :
    (r.gates.alloc (.shared epoch)).gate id = r.gate id := by
  rw [GateArena.gate_alloc, if_neg (Nat.ne_of_lt h)]
  rfl

end FrameAux

open FrameAux in
/-- Every edit that publishes and admits nothing has a frame. -/
theorem Edit.frame {U : Unicode} {r r' : IdentityRegistry} {l : EditLabel} (e : Edit U r l r')
    (hadm : ∀ id, l ≠ .admitted id) (hpub : ∀ i, l ≠ .published i) : Frame r r' := by
  cases e with
  | know key known hnew _ _ =>
    refine ⟨fun k a ha => continues_refl ha, fun d hd => Or.inl hd, ?_, le_refl _, le_refl _, le_refl _,
      fun _ => Or.inl rfl, fun _ _ _ _ => rfl⟩
    intro k kn hk
    simp only [FiniteMap.lookup_insert]
    rw [if_neg, hk]
    rintro rfl
    rw [hnew] at hk
    cases hk
  | burn u g t _ =>
    exact ⟨fun k a ha => continues_refl ha, fun d hd => Or.inl hd, fun _ _ hk => hk, Nat.le_add_right _ _,
      Nat.le_add_right _ _, le_refl _, fun _ => Or.inl rfl, fun _ _ _ _ => rfl⟩
  | login key known session sourceIp epoch _ _ _ _ =>
    exact ⟨continues_insert (Continues.fresh rfl rfl), fun d hd => Or.inl hd, fun _ _ hk => hk, Nat.le_succ _,
      le_refl _, Nat.le_succ _, count_alloc epoch, fun _ hid _ _ => gate_alloc_lt epoch hid⟩
  | grant key a p ha _ _ _ _ _ =>
    exact ⟨continues_insert (Continues.same a ha rfl rfl), fun d hd => Or.inl hd, fun _ _ hk => hk, le_refl _,
      le_refl _, le_refl _, fun _ => Or.inl rfl, fun _ _ _ _ => rfl⟩
  | freeze key a ha _ _ _ =>
    refine ⟨continues_insert (Continues.same a ha rfl rfl), fun d hd => Or.inl hd,
      fun _ _ hk => hk, le_refl _, Nat.le_succ _, le_refl _, fun id => Or.inl (count_setGate _ _ id), ?_⟩
    intro id _ hid _
    exact spare_setGate ha _ id hid
  | reopen key a t ha _ =>
    refine ⟨continues_insert (Continues.same a ha rfl rfl), fun d hd => Or.inl hd,
      fun _ _ hk => hk, le_refl _, le_refl _, le_refl _, fun id => Or.inl (count_setGate _ _ id), ?_⟩
    intro id _ hid _
    exact spare_setGate ha _ id hid
  | make epoch =>
    exact ⟨fun k a ha => continues_refl ha, fun d hd => Or.inl hd, fun _ _ hk => hk, Nat.le_succ _, le_refl _,
      Nat.le_succ _, count_alloc epoch, fun _ hid _ _ => gate_alloc_lt epoch hid⟩
  | admission => exact absurd rfl (hadm _)
  | unbind =>
    exact ⟨fun k a ha => continues_refl ha, fun d hd => Or.inl hd, fun _ _ hk => hk, le_refl _, le_refl _, le_refl _,
      fun _ => Or.inl rfl, fun _ _ _ _ => rfl⟩
  | disown key a ha _ =>
    exact ⟨continues_insert (Continues.same a ha rfl rfl), fun d hd => Or.inl hd,
      fun _ _ hk => hk, le_refl _, le_refl _, le_refl _, fun _ => Or.inl rfl, fun _ _ _ _ => rfl⟩
  | expire key a ha _ =>
    exact ⟨continues_insert (Continues.same a ha rfl rfl), fun d hd => Or.inl hd, fun _ _ hk => hk, le_refl _,
      le_refl _, le_refl _, fun _ => Or.inl rfl, fun _ _ _ _ => rfl⟩
  | defer key a ha =>
    refine ⟨?_, ?_, fun _ _ hk => hk, le_refl _, le_refl _, le_refl _, fun _ => Or.inl rfl, fun _ _ _ _ => rfl⟩
    · intro k b hb
      rw [FiniteMap.lookup_erase] at hb
      split at hb
      · cases hb
      · exact continues_refl hb
    · intro d hd
      rcases List.mem_append.1 hd with hd | hd
      · exact Or.inl hd
      · cases List.mem_singleton.1 hd
        exact Or.inr ⟨key, a, ha, rfl, rfl⟩
  | retire pre post d hd _ =>
    have hmem : d ∈ r.deferredReleases := by simp [hd]
    refine ⟨fun k a ha => continues_refl ha, ?_, fun _ _ hk => hk, le_refl _, le_refl _, le_refl _,
      fun id => Or.inl (count_setGate _ _ id), ?_⟩
    · intro e he
      have he : e ∈ pre ++ post := he
      refine Or.inl ?_
      rw [hd]
      simp only [List.mem_append, List.mem_cons] at he ⊢
      tauto
    · intro id _ _ hid
      show (r.setGate _ _).gate id = _
      rw [gate_setGate, if_neg (fun h => hid d hmem h.symm)]
  | publish => exact absurd rfl (hpub _)

/-- Every edit that freezes nothing only thaws. -/
theorem Edit.thaws {U : Unicode} {r r' : IdentityRegistry} {l : EditLabel} (e : Edit U r l r')
    (hfro : ∀ t, l ≠ .froze t) : Thaws r r' := by
  -- an inserted identity needs its own argument, every other one is as before
  have hinsert : ∀ (key : String) (b : ActiveIdentity), (∀ t, b.transferInProgress = some t →
      ∃ a, r.activeByName.lookup key = some a ∧ a.transferInProgress = some t ∧ b.known = a.known ∧
        b.generation = a.generation ∧ b.operationGate = a.operationGate ∧ b.permit = a.permit) →
      ∀ k a' t, (r.activeByName.insert key b).lookup k = some a' → a'.transferInProgress = some t →
      ∃ a, r.activeByName.lookup k = some a ∧ a.transferInProgress = some t ∧ a'.known = a.known ∧
        a'.generation = a.generation ∧ a'.operationGate = a.operationGate ∧ a'.permit = a.permit := by
    intro key b hb k a' t ha' ht
    rw [FiniteMap.lookup_insert] at ha'
    split at ha'
    · rename_i hkk
      subst hkk
      cases ha'
      exact hb t ht
    · exact ⟨a', ha', ht, rfl, rfl, rfl, rfl⟩
  have hnone : ∀ a : ActiveIdentity, a.transferInProgress = none → ∀ t, a.transferInProgress ≠ some t := by
    intro a ha t ht
    rw [ha] at ht
    cases ht
  cases e with
  | know => exact fun k a t ha ht => ⟨a, ha, ht, rfl, rfl, rfl, rfl⟩
  | burn => exact fun k a t ha ht => ⟨a, ha, ht, rfl, rfl, rfl, rfl⟩
  | login key known session sourceIp epoch _ _ _ _ => exact hinsert key _ (fun t ht => by cases ht)
  | grant key a p ha hnt _ _ _ _ => exact hinsert key _ (fun t ht => absurd ht (hnone a hnt t))
  | freeze => exact absurd rfl (hfro _)
  | reopen key a t ha _ => exact hinsert key _ (fun t ht => by cases ht)
  | make => exact fun k a t ha ht => ⟨a, ha, ht, rfl, rfl, rfl, rfl⟩
  | admission => exact fun k a t ha ht => ⟨a, ha, ht, rfl, rfl, rfl, rfl⟩
  | unbind => exact fun k a t ha ht => ⟨a, ha, ht, rfl, rfl, rfl, rfl⟩
  | disown key a ha _ => exact hinsert key _ (fun t ht => ⟨a, ha, ht, rfl, rfl, rfl, rfl⟩)
  | expire key a ha hnt => exact hinsert key _ (fun t ht => absurd ht (hnone a hnt t))
  | defer key a ha =>
    intro k b t hb ht
    rw [FiniteMap.lookup_erase] at hb
    split at hb
    · cases hb
    · exact ⟨b, hb, ht, rfl, rfl, rfl, rfl⟩
  | retire => exact fun k a t ha ht => ⟨a, ha, ht, rfl, rfl, rfl, rfl⟩
  | publish key a t binding next epoch _ _ _ _ _ _ _ _ _ _ _ _ _ => exact hinsert key _ (fun t ht => by cases ht)

end IdentityRegistry

/-! ## Counting leases -/

theorem liveAt_append (xs ys : List LiveLease) (id : GateId) : liveAt (xs ++ ys) id = liveAt xs id + liveAt ys id := by
  simp [liveAt, List.filter_append, List.map_append, List.sum_append]

theorem liveAt_cons (l : LiveLease) (xs : List LiveLease) (id : GateId) :
    liveAt (l :: xs) id = (if l.lease.gate = id then l.weight else 0) + liveAt xs id := by
  by_cases h : l.lease.gate = id
  · simp [liveAt, h]
  · simp [liveAt, h]

@[simp] theorem liveAt_nil (id : GateId) : liveAt [] id = 0 := rfl

/-- A gate without live operations has no lease. -/
theorem ne_of_liveAt_eq_zero {leases : List LiveLease} {id : GateId} (h : liveAt leases id = 0) :
    ∀ l ∈ leases, l.lease.gate ≠ id := by
  intro l hl heq
  obtain ⟨pre, post, rfl⟩ := List.append_of_mem hl
  rw [liveAt_append, liveAt_cons, if_pos heq] at h
  unfold LiveLease.weight at h
  omega

/-- A gate with no lease has no live operations. -/
theorem liveAt_eq_zero {leases : List LiveLease} {id : GateId} (h : ∀ l ∈ leases, l.lease.gate ≠ id) :
    liveAt leases id = 0 := by
  induction leases with
  | nil => rfl
  | cons l ls ih =>
    rw [liveAt_cons, if_neg (h l List.mem_cons_self), ih (fun x hx => h x (List.mem_cons_of_mem _ hx))]

end P5136
