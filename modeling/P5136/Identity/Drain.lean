import P5136.Identity.Representation

/-!
# A generation ends drained

When a commit publishes a generation in place of another, and when an operation returns an identity as released, no lease of
the old generation is live, and none is ever minted again. A commit never fails: the capability it consumes keeps its source
frozen and drained while leases come and go, so the assertions inside it hold.
-/

namespace P5136

open IdentityRegistry IdentitySystem Fault

/-! ## Completions do not panic -/

namespace DrainAux

variable {U : Unicode}

/-- A known user number has a nickname, so the index of the name table does not panic. -/
theorem validateMigration_safe {r : IdentityRegistry} (h : r.WellFormed U) (d : SessionId) (ip : IpAddr) (u : UserNo)
    (ch : UInt16) (tok : MigrationToken) (now : Instant) : Safe (r.validateMigration d ip u ch tok now) := by
  unfold validateMigration
  cases r.sessionBindings.lookup d with
  | some b => exact safe_error _
  | none =>
    cases hn : r.nameByUserNo.lookup u with
    | none => exact safe_error _
    | some key =>
      simp only
      cases r.activeByName.lookup key with
      | none =>
        obtain ⟨kn, hk, -⟩ := h.names.known_of_name u key hn
        simp only [hk]
        exact safe_error _
      | some a =>
        simp only
        cases a.permit with
        | none => exact safe_error _
        | some p =>
          simp only
          split
          · exact safe_error _
          split
          · exact safe_error _
          split
          · exact safe_error _
          split
          · exact safe_error _
          split
          · exact safe_error _
          split
          · exact safe_error _
          · exact safe_ok _

/-- A safe failure is the same failure at another type. -/
theorem safe_of_error {ε α β : Type} {e : Fault ε} (h : Safe (.error e : Except (Fault ε) α)) :
    Safe (.error e : Except (Fault ε) β) := by
  intro m hm
  cases hm
  exact h m rfl

theorem preflightMigration_safe {r : IdentityRegistry} (h : r.WellFormed U) (d : SessionId) (ip : IpAddr) (u : UserNo)
    (ch : UInt16) (tok : MigrationToken) (now : Instant) : Safe (r.preflightMigration d ip u ch tok now).1 := by
  have hv := validateMigration_safe h d ip u ch tok now
  unfold preflightMigration
  cases hval : r.validateMigration d ip u ch tok now with
  | error e =>
    rw [hval] at hv
    exact safe_of_error hv
  | ok v =>
    simp only
    split
    · exact safe_error _
    cases r.allocateTransferId with
    | mk res r₁ =>
      cases res with
      | error e => exact safe_error _
      | ok t =>
        simp only
        split
        · exact safe_error _
        split
        · exact safe_error _
        split
        · exact safe_error _
        · exact safe_ok _

theorem validatePreflightedMigration_safe {r : IdentityRegistry} (h : r.WellFormed U) (t : MigrationPreflight)
    (now : Instant) : Safe (r.validatePreflightedMigration t now) := by
  have hv := validateMigration_safe h t.destinationSession t.destinationIp t.userNo t.channelId t.token now
  unfold validatePreflightedMigration
  cases hval : r.validateMigration t.destinationSession t.destinationIp t.userNo t.channelId t.token now with
  | error e =>
    rw [hval] at hv
    exact safe_of_error hv
  | ok v =>
    simp only
    split
    · exact safe_error _
    split
    · exact safe_error _
    split
    · exact safe_error _
    · exact safe_ok _

theorem preparePreflightedMigration_safe {r : IdentityRegistry} (h : r.WellFormed U) (t : MigrationPreflight)
    (now : Instant) (reserved : Bool) : Safe (r.preparePreflightedMigration t now reserved).1 := by
  have hv := validatePreflightedMigration_safe h t now
  unfold preparePreflightedMigration prepareCandidate
  cases hval : r.validatePreflightedMigration t now with
  | error e =>
    rw [hval] at hv
    exact safe_of_error hv
  | ok _ =>
    obtain ⟨a, p, -, hval'⟩ := validatePreflightedMigration_ok hval
    simp only [hval']
    cases r.allocateGeneration with
    | mk res r₁ =>
      cases res with
      | error e => exact safe_error _
      | ok g =>
        cases reserved with
        | false => exact safe_error _
        | true => exact safe_ok _

theorem lockPreparedMigration_safe {r : IdentityRegistry} (h : r.WellFormed U) (t : MigrationPreflight)
    (c : MigrationCandidate) (now : Instant) : Safe (r.lockPreparedMigration t c now).1 := by
  have hv := validatePreflightedMigration_safe h t now
  unfold lockPreparedMigration
  cases hval : r.validatePreflightedMigration t now with
  | error e =>
    rw [hval] at hv
    exact safe_of_error hv
  | ok _ =>
    obtain ⟨a, p, hready, -⟩ := validatePreflightedMigration_ok hval
    simp only
    split
    · exact safe_error _
    rename_i hfit
    simp only [not_or, not_not] at hfit
    have hact : r.activeByName.lookup c.canonicalNickname = some a := hfit.1 ▸ hready.validated.active
    simp only [hact]
    exact safe_ok _

/-- A ticket consumed at once does not panic. -/
theorem completePreflighted_safe {s : IdentitySystem} (h : Custody U s) (hc : s.commit = none) (t : MigrationPreflight)
    (now : Instant) (reserved : Bool) (epoch : Nat) :
    Safe (s.registry.completePreflightedMigrationAtUdpEpoch t now reserved epoch).1 := by
  have hprep := StepsAux.sound_prepare h hc t now reserved
  have hsafe := preparePreflightedMigration_safe h.registry t now reserved
  unfold completePreflightedMigrationAtUdpEpoch
  generalize s.registry.preparePreflightedMigration t now reserved = x at hprep hsafe
  obtain ⟨res, r₁⟩ := x
  cases res with
  | error e => exact safe_of_error hsafe
  | ok c =>
    simp only [okList] at hprep ⊢
    have hlock := StepsAux.sound_lock hprep.custody hc t s.candidates [] c now rfl
    have hsafe := lockPreparedMigration_safe hprep.custody.registry t c now
    simp only at hlock hsafe
    generalize r₁.lockPreparedMigration t c now = y at hlock hsafe
    obtain ⟨res, r₂⟩ := y
    cases res with
    | error e => exact safe_of_error hsafe
    | ok g =>
      simp only [okList, List.head?_cons] at hlock
      obtain ⟨hok, -⟩ := StepsAux.sound_commit hlock.custody g epoch rfl
      simp only at hok ⊢
      rw [hok]
      exact safe_ok _

/-- A migration completed at once does not panic. -/
theorem complete_safe {s : IdentitySystem} (h : Custody U s) (hc : s.commit = none) (d : SessionId) (ip : IpAddr)
    (u : UserNo) (ch : UInt16) (tok : MigrationToken) (now : Instant) (reserved : Bool) :
    Safe (s.registry.completeMigration d ip u ch tok now reserved).1 := by
  have hpre := StepsAux.sound_preflight h hc d ip u ch tok now
  have hsafe := preflightMigration_safe h.registry d ip u ch tok now
  unfold completeMigration
  generalize s.registry.preflightMigration d ip u ch tok now = x at hpre hsafe
  obtain ⟨res, r₁⟩ := x
  cases res with
  | error e => exact safe_of_error hsafe
  | ok t => exact completePreflighted_safe hpre.custody hc t now reserved 0

end DrainAux

/-- The completion that the event attempts, if any, does not panic. -/
def IdentityEvent.CompletionSafe : IdentityEvent → Prop
  | .commit _ result => Safe result
  | .complete _ _ _ _ _ _ result => Safe result
  | .completePreflighted _ _ result => Safe result
  | _ => True

/-- No completion panics. -/
theorem Step.completionSafe {U : Unicode} {s s' : IdentitySystem} {e : IdentityEvent} (h : Custody U s)
    (hs : Step U s e s') : e.CompletionSafe := by
  cases hs with
  | commit g epoch hg =>
    show Safe _
    rw [(StepsAux.sound_commit h g epoch hg).1]
    exact safe_ok _
  | complete d ip u ch tok now reserved hc => exact DrainAux.complete_safe h hc d ip u ch tok now reserved
  | completePreflighted t now reserved epoch hc _ => exact DrainAux.completePreflighted_safe h hc t now reserved epoch
  | _ => trivial

/-! ## Runs -/

/-- Along a path, a generation that is over stays over, and no lease of it is minted. -/
theorem over_path {U : Unicode} {s t : IdentitySystem} {es : List IdentityEvent} {gen : IdentityGeneration}
    (hp : Transition.Path (Step U) s es t) (h : Custody U s) (ho : Over s gen) :
    Custody U t ∧ Over t gen ∧ ∀ e ∈ es, ∀ l ∈ e.minted, l.binding.generation ≠ gen := by
  induction hp with
  | nil => exact ⟨h, ho, fun e he => by cases he⟩
  | snoc _ hs ih =>
    obtain ⟨hc, hov, hmint⟩ := ih
    have hsound := Step.sound hc hs
    refine ⟨hsound.custody, hsound.stays gen hov, ?_⟩
    intro e he l hl
    rcases List.mem_append.1 he with he | he
    · exact hmint e he l hl
    · cases List.mem_singleton.1 he
      rintro rfl
      exact hsound.minted l hl hov

/-- The generation has no live lease, and never gets one again. -/
def Drained (U : Unicode) (s : IdentitySystem) (gen : IdentityGeneration) : Prop :=
  (∀ l ∈ s.leases, l.lease.binding.generation ≠ gen) ∧
  ∀ es t, Transition.Path (Step U) s es t →
    (∀ l ∈ t.leases, l.lease.binding.generation ≠ gen) ∧ ∀ e ∈ es, ∀ l ∈ e.minted, l.binding.generation ≠ gen

/-- In every run, a generation that a step ends, by publishing another one in its place or by returning it as released, has no
live lease at that moment and no lease is minted for it from then on; and no completion of a migration panics. -/
theorem generation_drain_safety (U : Unicode) {s s' : IdentitySystem} {e : IdentityEvent} (h : Reachable U s)
    (hs : Step U s e s') :
    (∀ gen ∈ e.ended, (∀ l ∈ s.leases, l.lease.binding.generation ≠ gen) ∧ Drained U s' gen) ∧ e.CompletionSafe := by
  have hc := custody_of_reachable h
  have hsound := Step.sound hc hs
  refine ⟨?_, Step.completionSafe hc hs⟩
  intro gen hgen
  obtain ⟨hov, hleases⟩ := hsound.ended gen hgen
  refine ⟨hleases ▸ hov.lease, hov.lease, ?_⟩
  intro es t hp
  obtain ⟨-, hovt, hmint⟩ := over_path hp hsound.custody hov
  exact ⟨hovt.lease, hmint⟩

namespace DrainAux

open RepresentationAux

/-- The player has an operation admitted and logs out. -/
def leaving : IdentitySystem :=
  let admitted := loggedIn.registry.admitOperation .ascii ⟨1⟩
  ⟨(admitted.2.disconnect .ascii ⟨1⟩ 0).2, withMinted [] admitted.1, [], [], none⟩

theorem reachable_leaving : Reachable .ascii leaving :=
  (reachable_loggedIn.snoc (Step.admission ⟨1⟩ rfl)).snoc (Step.disconnect ⟨1⟩ 0 rfl)

end DrainAux

open RepresentationAux DrainAux in
/-- A player who logs out while an operation holds a lease: when it is dropped and the releases are collected, the generation is
over. -/
theorem generation_drain_safety_logout : ∃ l t es, leaving.leases = [⟨l, []⟩] ∧ l.binding.generation = ⟨1⟩ ∧
    Transition.Path (Step .ascii) leaving (.dropped l :: es) t ∧ Drained .ascii t ⟨1⟩ := by
  obtain ⟨l, hl, hgeneration⟩ : ∃ l, leaving.leases = [⟨l, []⟩] ∧ l.binding.generation = ⟨1⟩ := ⟨_, rfl, rfl⟩
  have hdropped := Step.dropped (U := .ascii) [] [] ⟨l, []⟩ hl rfl
  have hcollected := Step.collect (U := .ascii) (s := { leaving with
    registry := leaving.registry.setGate l.gate (leaving.registry.gate l.gate).release, leases := [] ++ [] }) rfl
  refine ⟨l, _, _, hl, hgeneration, (Transition.Path.single hdropped).snoc hcollected, ?_⟩
  refine ((generation_drain_safety .ascii (reachable_leaving.snoc hdropped) hcollected).1 ⟨1⟩ ?_).2
  obtain rfl := (LiveLease.mk.inj (List.cons.inj hl).1).1
  decide +kernel

end P5136
