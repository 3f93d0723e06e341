import Mathlib.Data.List.Induction
import P5136.Udp.Fencing

/-!
# Endpoint tombstones

A route is a tombstone when its user has no active entry. `remove_released_identity` clears a route only if the route was
bound under the released generation, so a route that was bound under an older generation, and not bound again after the
advance, outlives an exact release. Here is exactly when a run has no tombstone.
-/

namespace P5136

namespace UdpEndpointState

open FencingAux FiniteMap

/-- The state a list of operations leads to, from the empty state. -/
def after (maximum : Nat) (calls : List UdpCall) : UdpEndpointState := calls.foldl apply (withMaxActiveIdentities maximum)

theorem after_snoc (maximum : Nat) (calls : List UdpCall) (call : UdpCall) :
    after maximum (calls ++ [call]) = (after maximum calls).apply call := by
  simp [after]

/-- The reachable states are the ones a list of operations leads to. -/
theorem reachable_iff {maximum : Nat} {s : UdpEndpointState} : Reachable maximum s ↔ ∃ calls, s = after maximum calls := by
  constructor
  · rintro ⟨s₀, calls, rfl, hp⟩
    refine ⟨calls, ?_⟩
    induction hp with
    | nil => rfl
    | snoc _ hst ih =>
      rw [after_snoc, ← ih]
      exact hst
  · rintro ⟨calls, rfl⟩
    induction calls using List.reverseRecOn with
    | nil => exact Transition.Reachable.of_init rfl
    | append_singleton calls call ih =>
      rw [after_snoc]
      exact ih.snoc rfl

/-- The user has a route on the transport. -/
def HasRoute (s : UdpEndpointState) (tr : UdpTransport) (u : UserNo) : Prop := ((s.table tr).bindings.lookup u).isSome

/-- Every route belongs to a user with an active entry. -/
def NoTombstones (s : UdpEndpointState) : Prop := ∀ tr u, s.HasRoute tr u → (s.active.lookup u).isSome

/-- The release carries the active generation of its user. -/
def Exact (s : UdpEndpointState) (id : ReleasedIdentity) : Prop :=
  ∃ a, s.active.lookup id.userNo = some a ∧ a.generation = id.generation

/-- Every route the user of an exact release still has was bound under the generation it releases. -/
def RoutesRebound (s : UdpEndpointState) (id : ReleasedIdentity) : Prop :=
  s.Exact id → ∀ tr b, (s.table tr).bindings.lookup id.userNo = some b → b.generation = id.generation

/-! ## What one operation does to the routes and to the capacity -/

namespace TombstonesAux

/-- An exact release clears the routes of its user that were bound under the released generation. -/
theorem lookup_table_removeReleasedIdentity {s : UdpEndpointState} {id : ReleasedIdentity} (hx : s.Exact id)
    (tr : UdpTransport) (u : UserNo) :
    ((s.removeReleasedIdentity id).table tr).bindings.lookup u =
      if u = id.userNo ∧ ((s.table tr).bindings.lookup id.userNo).any (fun b => b.generation = id.generation) then none
      else (s.table tr).bindings.lookup u := by
  obtain ⟨a, ha, hg⟩ := hx
  have hany : (s.active.lookup id.userNo).any (fun active => active.generation = id.generation) = true :=
    (Option.any_eq_true _ _).2 ⟨a, ha, by simpa using hg⟩
  unfold removeReleasedIdentity
  rw [if_pos hany]
  cases tr <;> exact GenerationEndpointTable.lookup_release ..

/-- After an exact release the user has a route exactly when it had one bound under another generation. -/
theorem hasRoute_removeReleasedIdentity {s : UdpEndpointState} {id : ReleasedIdentity} (hx : s.Exact id)
    (tr : UdpTransport) :
    (s.removeReleasedIdentity id).HasRoute tr id.userNo ↔
      ∃ b, (s.table tr).bindings.lookup id.userNo = some b ∧ b.generation ≠ id.generation := by
  unfold HasRoute
  rw [lookup_table_removeReleasedIdentity hx]
  cases hl : (s.table tr).bindings.lookup id.userNo with
  | none => simp
  | some b => by_cases hg : b.generation = id.generation <;> simp [hg]

/-- Every operation keeps the capacity. -/
theorem maximum_apply (s : UdpEndpointState) (call : UdpCall) :
    (s.apply call).maximumActiveIdentities = s.maximumActiveIdentities := by
  cases call with
  | advanceIdentity id => rcases s.advanceIdentity_cases id with ⟨r, hr⟩ | ⟨hr, -⟩ <;> simp only [apply, hr]
  | bindAuthorizedIngressAt tr id src rh n =>
    rcases s.bindAuthorizedIngressAt_cases tr id src rh n with ⟨e, hr⟩ | ⟨a, c, out, hr, -⟩ <;> simp only [apply, hr]
    cases tr <;> rfl
  | authorizeRebind id e =>
    rcases s.authorizeRebind_cases id e with ⟨err, hr⟩ | ⟨a, -, -, -, ⟨b, -, -, hr⟩ | ⟨-, hr⟩⟩ <;> simp only [apply, hr]
  | removeReleasedIdentity id =>
    rcases s.removeReleasedIdentity_cases id with hr | ⟨a, -, -, hr⟩ <;> simp only [apply, hr]
  | clear => rfl

/-- An advance that adds a user finds room for it. -/
theorem size_advanceIdentity {s : UdpEndpointState} (h : s.active.size ≤ s.maximumActiveIdentities)
    (id : IdentityBinding) : (s.advanceIdentity id).2.active.size ≤ s.maximumActiveIdentities := by
  have hins : ∀ a, size (s.active.insert id.userNo a) ≤ s.maximumActiveIdentities ∨
      ((s.active.lookup id.userNo).isNone ∧ s.active.size ≥ s.maximumActiveIdentities) := by
    intro a
    rw [size_insert]
    cases hl : s.active.lookup id.userNo with
    | none =>
      by_cases hc : s.active.size ≥ s.maximumActiveIdentities
      · exact Or.inr ⟨rfl, hc⟩
      · refine Or.inl ?_
        simp only [Option.isSome_none, Bool.false_eq_true, if_false]
        omega
    | some a' => exact Or.inl (by simpa using h)
  have hinstall : ∀ r : Except UdpEndpointStateError Unit × UdpEndpointState,
      r = (if (s.active.lookup id.userNo).isNone ∧ s.active.size ≥ s.maximumActiveIdentities then
          (.error (.activeIdentityCapacity s.maximumActiveIdentities), s)
        else (.ok (), { s with active := s.active.insert id.userNo (.ofBinding id) })) →
      r.2.active.size ≤ s.maximumActiveIdentities := by
    intro r hr
    subst hr
    split
    · exact h
    · rename_i hfree
      exact (hins _).resolve_right hfree
  unfold advanceIdentity
  simp only
  split
  · exact hinstall _ rfl
  · split
    · exact h
    · split
      · split <;> exact h
      · exact hinstall _ rfl

/-- The active entries stay within the capacity. -/
theorem size_apply {s : UdpEndpointState} (h : s.active.size ≤ s.maximumActiveIdentities) (call : UdpCall) :
    (s.apply call).active.size ≤ (s.apply call).maximumActiveIdentities := by
  rw [maximum_apply]
  cases call with
  | advanceIdentity id => exact size_advanceIdentity h id
  | bindAuthorizedIngressAt tr id src rh n =>
    rcases s.bindAuthorizedIngressAt_cases tr id src rh n with ⟨e, hr⟩ | ⟨a, c, out, hr, -⟩ <;>
      simp only [apply, hr, active_setTable]
    · exact h
    · exact h
  | authorizeRebind id e =>
    rcases s.authorizeRebind_cases id e with ⟨err, hr⟩ | ⟨a, ha, -, -, ⟨b, -, -, hr⟩ | ⟨-, hr⟩⟩ <;> simp only [apply, hr]
    · exact h
    · exact h
    · rw [size_insert, ha]
      exact h
  | removeReleasedIdentity id =>
    rcases s.removeReleasedIdentity_cases id with hr | ⟨a, -, -, hr⟩ <;> simp only [apply, hr]
    · exact h
    · exact le_trans (size_erase_le _ _) h
  | clear => exact Nat.zero_le _

/-- An operation keeps the routes free of tombstones, unless it is a release of a generation that does not own them. -/
theorem noTombstones_apply {s : UdpEndpointState} (h : s.NoTombstones) (call : UdpCall)
    (hr : ∀ id, call = .removeReleasedIdentity id → s.RoutesRebound id) : (s.apply call).NoTombstones := by
  cases call with
  | advanceIdentity id =>
    rcases s.advanceIdentity_cases id with ⟨r, he⟩ | ⟨he, -⟩
    · simpa only [apply, he] using h
    · intro tr u hu
      simp only [apply, he] at hu ⊢
      rw [lookup_insert]
      split
      · rfl
      · exact h tr u (by cases tr <;> exact hu)
  | bindAuthorizedIngressAt tr id src rh n =>
    rcases s.bindAuthorizedIngressAt_cases tr id src rh n with ⟨e, he⟩ | ⟨a, c, out, he, ha, -⟩
    · simpa only [apply, he] using h
    · intro tr' u hu
      simp only [apply, he, active_setTable, HasRoute, table_setTable] at hu ⊢
      split at hu
      · rename_i htr
        subst htr
        simp only [lookup_insert] at hu
        split at hu
        · rename_i hid
          rw [hid, ha]
          rfl
        · exact h _ u hu
      · exact h _ u hu
  | authorizeRebind id e =>
    rcases s.authorizeRebind_cases id e with ⟨err, he⟩ | ⟨a, ha, -, -, ⟨b, -, -, he⟩ | ⟨-, he⟩⟩
    · simpa only [apply, he] using h
    · simpa only [apply, he] using h
    · intro tr u hu
      simp only [apply, he] at hu ⊢
      rw [lookup_insert]
      split
      · rfl
      · rename_i hne
        refine h tr u ?_
        unfold HasRoute at hu ⊢
        rwa [lookup_table_release hne] at hu
  | removeReleasedIdentity id =>
    by_cases hx : s.Exact id
    · intro tr u hu
      by_cases hid : u = id.userNo
      · subst hid
        obtain ⟨b, hb, hg⟩ := (hasRoute_removeReleasedIdentity hx tr).1 hu
        exact absurd (hr id rfl hx tr b hb) hg
      · rcases s.removeReleasedIdentity_cases id with he | ⟨a, -, -, he⟩ <;> simp only [apply, he] at hu ⊢
        · exact h tr u hu
        · rw [lookup_erase, if_neg hid]
          refine h tr u ?_
          unfold HasRoute at hu ⊢
          rwa [lookup_table_release hid] at hu
    · rcases s.removeReleasedIdentity_cases id with he | ⟨a, ha, hg, -⟩
      · simpa only [apply, he] using h
      · exact absurd ⟨a, ha, hg⟩ hx
  | clear =>
    intro tr u hu
    cases tr <;> exact absurd hu (by simp [HasRoute, apply, clear, table, GenerationEndpointTable.empty])

end TombstonesAux

/-! ## Runs -/

/-- The active entries of a reachable state are within the capacity. -/
theorem size_after (maximum : Nat) (calls : List UdpCall) :
    (after maximum calls).active.size ≤ maximum ∧ (after maximum calls).maximumActiveIdentities = maximum := by
  induction calls using List.reverseRecOn with
  | nil => exact ⟨Nat.zero_le _, rfl⟩
  | append_singleton calls call ih =>
    have h := TombstonesAux.size_apply (by rw [ih.2]; exact ih.1) call
    have hm := TombstonesAux.maximum_apply (after maximum calls) call
    rw [after_snoc]
    exact ⟨le_trans h (le_of_eq (hm.trans ih.2)), hm.trans ih.2⟩

/-- Without tombstones, both tables are within the capacity of the active entries. -/
theorem size_table_le {s : UdpEndpointState} (h : s.NoTombstones) (tr : UdpTransport) :
    (s.table tr).bindings.size ≤ s.active.size :=
  size_le_of_lookup (h tr)

/-- A run without tombstones: in every state it goes through each route belongs to an active user and both tables are within
the capacity, and every exact release leaves its user without a route. -/
structure Clean (maximum : Nat) (calls : List UdpCall) : Prop where
  owned : ∀ before, before <+: calls → (after maximum before).NoTombstones
  bounded : ∀ before tr, before <+: calls → ((after maximum before).table tr).bindings.size ≤ maximum
  cleared : ∀ before id tr, before ++ [.removeReleasedIdentity id] <+: calls → (after maximum before).Exact id →
    ¬((after maximum before).removeReleasedIdentity id).HasRoute tr id.userNo

namespace TombstonesAux

/-- When every exact release finds only routes of its own generation, no state of the run has a tombstone. -/
theorem noTombstones_after {maximum : Nat} {calls : List UdpCall}
    (h : ∀ before id, before ++ [.removeReleasedIdentity id] <+: calls → (after maximum before).RoutesRebound id) :
    (after maximum calls).NoTombstones := by
  induction calls using List.reverseRecOn with
  | nil =>
    intro tr u hu
    cases tr <;> exact absurd hu (by simp [HasRoute, after, withMaxActiveIdentities, table, GenerationEndpointTable.empty])
  | append_singleton calls call ih =>
    rw [after_snoc]
    refine noTombstones_apply (ih fun before id hb => h before id (hb.trans (List.prefix_append _ _))) call ?_
    rintro id rfl
    exact h calls id (List.prefix_refl _)

end TombstonesAux

/-- A run is free of tombstones exactly when each of its exact releases finds only routes bound under the generation it
releases: no transport kept a route of an older generation through the last advance. -/
theorem clean_iff (maximum : Nat) (calls : List UdpCall) :
    Clean maximum calls ↔
      ∀ before id, before ++ [.removeReleasedIdentity id] <+: calls → (after maximum before).RoutesRebound id := by
  constructor
  · intro h before id hb hx tr b hl
    by_contra hg
    exact h.cleared before id tr hb hx ((TombstonesAux.hasRoute_removeReleasedIdentity hx tr).2 ⟨b, hl, hg⟩)
  · intro h
    have howned : ∀ before, before <+: calls → (after maximum before).NoTombstones := fun before hb =>
      TombstonesAux.noTombstones_after fun b id hbid => h b id (hbid.trans hb)
    refine ⟨howned, ?_, ?_⟩
    · intro before tr hb
      exact le_trans (size_table_le (howned before hb) tr) (size_after maximum before).1
    · intro before id tr hb hx hroute
      obtain ⟨b, hl, hg⟩ := (TombstonesAux.hasRoute_removeReleasedIdentity hx tr).1 hroute
      exact hg (h before id hb hx tr b hl)

namespace TombstonesAux

/-- The player's next generation. -/
def playerMoved : IdentityBinding := { player with generation := ⟨2⟩ }

/-- The release of the player's next generation. -/
def playerRelease : ReleasedIdentity where
  nickname := "rider"
  userNo := ⟨1, Nat.one_ne_zero, NonZero.one_lt_32⟩
  generation := ⟨2⟩
  sourceIp := .v4 1
  channel := none

/-- The player binds the game route, advances to the next generation, and is released before it sends another datagram. -/
def movedThenReleased : List UdpCall :=
  [.advanceIdentity player, .bindAuthorizedIngressAt .game player playerSource 0 0,
    .advanceIdentity playerMoved, .removeReleasedIdentity playerRelease]

end TombstonesAux

/-- A reachable state with a tombstone: the route of the first generation outlives the release of the second, which was
exact. -/
theorem noTombstones_false :
    Reachable 1 (after 1 TombstonesAux.movedThenReleased) ∧ ¬(after 1 TombstonesAux.movedThenReleased).NoTombstones ∧
    ¬Clean 1 TombstonesAux.movedThenReleased := by
  have hroute : (after 1 TombstonesAux.movedThenReleased).HasRoute .game player.userNo := by
    unfold HasRoute
    decide
  have hgone : (after 1 TombstonesAux.movedThenReleased).active.lookup player.userNo = none := by decide
  have htomb : ¬(after 1 TombstonesAux.movedThenReleased).NoTombstones := by
    intro h
    have := h .game player.userNo hroute
    rw [hgone] at this
    nomatch this
  exact ⟨reachable_iff.2 ⟨_, rfl⟩, htomb, fun h => htomb (h.owned _ (List.prefix_refl _))⟩

end UdpEndpointState

end P5136
