import P5136.Xun.ChargerLaw

/-!
# Chargers run by their law

The state of a charger agrees with its law through events and ticks: its counters are quotient and remainder of the uses made
while it was inactive, and its deadline is the last tick before its activation and the time of use.
-/

namespace P5136.Xun

variable {κ : Type}

/-- The state of a charger agrees with its law. -/
structure ChargerState.Agrees (state : ChargerState) (tuning : ChargerTuning) (c : LocalCharger κ) : Prop where
  active : state.active = c.since.isSome
  total : tuning.boosterUseCount.toNat ≠ 0 → state.totalBoosterUses.toNat = c.uses
  inactive : c.inactiveUses ≤ c.uses
  cycles : tuning.boosterUseCount.toNat ≠ 0 → state.activationCount.toNat = c.inactiveUses / tuning.boosterUseCount.toNat
  pending : tuning.boosterUseCount.toNat ≠ 0 → state.pendingBoosterUses.toNat = c.inactiveUses % tuning.boosterUseCount.toNat
  complete : c.since ≠ none → tuning.boosterUseCount.toNat ∣ c.inactiveUses
  /-- A deadline that no tick is later than is zero. -/
  deadline : ∀ since, c.since = some since → state.activeUntilMs.toNat = (since + tuning.useTimeMs.toNat) % 2 ^ 32 ∧
    0 < since + tuning.useTimeMs.toNat ∧ since + tuning.useTimeMs.toNat ≤ 2 ^ 32
  noDeadline : c.since = none → state.activeUntilMs = 0

namespace ChargerState.Agrees

variable {state : ChargerState} {tuning : ChargerTuning} {c : LocalCharger κ}

/-- A charger that was reset. -/
theorem reset (kart : κ) (client : Option UInt32) (tuning : ChargerTuning) :
    ChargerState.Agrees {} tuning { kart := kart, client := client } where
  active := rfl
  total _ := rfl
  inactive := le_refl 0
  cycles _ := (Nat.zero_div _).symm
  pending _ := (Nat.zero_mod _).symm
  complete h := absurd rfl h
  deadline since h := by cases h
  noDeadline _ := rfl

/-- The client counter is no part of the state. -/
theorem withClient (h : state.Agrees tuning c) (client : Option UInt32) : state.Agrees tuning { c with client := client } :=
  ⟨h.active, h.total, h.inactive, h.cycles, h.pending, h.complete, h.deadline, h.noDeadline⟩

/-- An inactive charger. -/
theorem since_none (h : state.Agrees tuning c) (hactive : state.active = false) : c.since = none := by
  have hsome := h.active
  rw [hactive] at hsome
  exact Option.not_isSome_iff_eq_none.1 (Bool.eq_false_iff.1 hsome.symm)

/-- An active charger. -/
theorem since_some (h : state.Agrees tuning c) (hactive : state.active = true) : ∃ since, c.since = some since :=
  Option.isSome_iff_exists.1 (h.active.symm.trans hactive)

/-- An event that is not counted changes nothing. -/
theorem observeDriveEvent_excluded (h : state.Agrees tuning c) (now : UInt32) (eventKind : UInt8) :
    state.observeDriveEvent tuning now eventKind true = (state, .none) := by
  have hcounted : state.counted tuning eventKind true = state := if_neg fun h => Bool.noConfusion h.1
  unfold observeDriveEvent
  rw [hcounted]
  dsimp only
  split
  · rfl
  · rename_i hgo
    split
    · rfl
    · -- the pending uses are fewer than an activation takes
      have hcount : tuning.boosterUseCount.toNat ≠ 0 := fun heq => hgo (.inr (.inl (UInt32.toNat_inj.1 heq)))
      have hlt : c.inactiveUses % tuning.boosterUseCount.toNat < tuning.boosterUseCount.toNat :=
        Nat.mod_lt _ (Nat.pos_of_ne_zero hcount)
      have hpending : state.pendingBoosterUses ≠ tuning.boosterUseCount := by
        intro heq
        have := h.pending hcount
        rw [heq] at this
        omega
      unfold setActive
      split
      · rfl
      · rw [if_pos ⟨rfl, hpending⟩]

/-- A counted use of an active charger. -/
theorem use_active (h : state.Agrees tuning c) {since : Nat} (hsince : c.since = some since)
    (hfits : tuning.boosterUseCount.toNat ≠ 0 → c.uses + 1 < 2 ^ 32) (lastTick : Nat) :
    ChargerState.Agrees { state with totalBoosterUses := state.totalBoosterUses + 1 } tuning (c.use tuning lastTick) := by
  have hnotDue : ¬c.Due tuning := by
    intro hdue
    rw [hdue.1] at hsince
    cases hsince
  have huse : c.use tuning lastTick = { c with uses := c.uses + 1 } := by
    unfold LocalCharger.use
    rw [if_neg hnotDue, if_neg (by rw [hsince]; exact Option.some_ne_none since)]
  rw [huse]
  refine ⟨h.active, fun hcount => ?_, h.inactive.trans (Nat.le_succ _), h.cycles, h.pending, h.complete, h.deadline, h.noDeadline⟩
  have hlt := hfits hcount
  rw [UInt32.toNat_add, h.total hcount]
  exact Nat.mod_eq_of_lt hlt

/-- A counted use of an inactive charger that does not activate it. -/
theorem use_pending (h : state.Agrees tuning c) (hsince : c.since = none) (hdue : ¬c.Due tuning)
    (hfits : tuning.boosterUseCount.toNat ≠ 0 → c.uses + 1 < 2 ^ 32) (lastTick : Nat) :
    ChargerState.Agrees { state with
      totalBoosterUses := state.totalBoosterUses + 1
      pendingBoosterUses := state.pendingBoosterUses + 1 } tuning (c.use tuning lastTick) := by
  have huse : c.use tuning lastTick = { c with uses := c.uses + 1, inactiveUses := c.inactiveUses + 1 } := by
    unfold LocalCharger.use
    rw [if_neg hdue, if_pos hsince]
  rw [huse]
  have hne : tuning.boosterUseCount.toNat ≠ 0 →
      c.inactiveUses % tuning.boosterUseCount.toNat + 1 < tuning.boosterUseCount.toNat := by
    intro hcount
    have hlt : c.inactiveUses % tuning.boosterUseCount.toNat < tuning.boosterUseCount.toNat :=
      Nat.mod_lt _ (Nat.pos_of_ne_zero hcount)
    have hnot : ¬tuning.boosterUseCount.toNat ∣ c.inactiveUses + 1 := fun hdvd => hdue ⟨hsince, hcount, hdvd⟩
    have hmod : c.inactiveUses % tuning.boosterUseCount.toNat + 1 ≠ tuning.boosterUseCount.toNat := by
      intro heq
      refine hnot (Nat.dvd_of_mod_eq_zero ?_)
      rw [Nat.add_mod, ← Nat.add_mod, ← Nat.mod_add_mod, heq, Nat.mod_self]
    omega
  refine ⟨h.active, fun hcount => ?_, Nat.succ_le_succ h.inactive, fun hcount => ?_, fun hcount => ?_,
    fun hsome => absurd hsince hsome, h.deadline, h.noDeadline⟩
  · have hlt := hfits hcount
    rw [UInt32.toNat_add, h.total hcount]
    exact Nat.mod_eq_of_lt hlt
  · rw [h.cycles hcount]
    refine (Nat.succ_div_of_not_dvd fun hdvd => hdue ⟨hsince, hcount, hdvd⟩).symm
  · have hlt := hne hcount
    have hbound := tuning.boosterUseCount.toNat_lt
    have hnext : (state.pendingBoosterUses + 1).toNat = c.inactiveUses % tuning.boosterUseCount.toNat + 1 := by
      rw [UInt32.toNat_add, h.pending hcount]
      exact Nat.mod_eq_of_lt (by change _ + 1 < 2 ^ 32; omega)
    exact hnext.trans ((Nat.mod_eq_of_lt hlt).symm.trans (Nat.mod_add_mod _ _ _))

/-- A counted use of an inactive charger that activates it. -/
theorem use_due (h : state.Agrees tuning c) (hdue : c.Due tuning)
    (hfits : tuning.boosterUseCount.toNat ≠ 0 → c.uses + 1 < 2 ^ 32) {lastTick : UInt32}
    (hpos : 0 < lastTick.toNat + tuning.useTimeMs.toNat) (hle : lastTick.toNat + tuning.useTimeMs.toNat ≤ 2 ^ 32) :
    ChargerState.Agrees { state with
      active := true
      totalBoosterUses := state.totalBoosterUses + 1
      activationCount := state.activationCount + 1
      pendingBoosterUses := 0
      activeUntilMs := lastTick + tuning.useTimeMs } tuning (c.use tuning lastTick.toNat) := by
  have huse : c.use tuning lastTick.toNat =
      { c with uses := c.uses + 1, inactiveUses := c.inactiveUses + 1, since := some lastTick.toNat } := by
    unfold LocalCharger.use
    rw [if_pos hdue, if_pos hdue.1]
  rw [huse]
  refine ⟨rfl, fun hcount => ?_, Nat.succ_le_succ h.inactive, fun hcount => ?_, fun hcount => ?_, fun _ => hdue.2.2,
    fun since hsince => ?_, fun hnone => by cases hnone⟩
  · have huses := hfits hcount
    rw [UInt32.toNat_add, h.total hcount]
    exact Nat.mod_eq_of_lt huses
  · have hle : c.inactiveUses / tuning.boosterUseCount.toNat ≤ c.inactiveUses := Nat.div_le_self _ _
    have huses := hfits hcount
    have hinactive := h.inactive
    rw [UInt32.toNat_add, h.cycles hcount]
    refine (Nat.mod_eq_of_lt ?_).trans (Nat.succ_div_of_dvd hdue.2.2).symm
    change c.inactiveUses / tuning.boosterUseCount.toNat + 1 < 2 ^ 32
    omega
  · exact (Nat.mod_eq_zero_of_dvd hdue.2.2).symm
  · cases hsince
    exact ⟨UInt32.toNat_add .., hpos, hle⟩

/-- A counted use. -/
theorem use (h : state.Agrees tuning c) (henabled : tuning.enabled = true) {eventKind : UInt8}
    (hkind : eventKind = 3 ∨ eventKind = 4) (hfits : tuning.boosterUseCount.toNat ≠ 0 → c.uses + 1 < 2 ^ 32)
    {lastTick : UInt32} (hdue : c.Due tuning →
      0 < lastTick.toNat + tuning.useTimeMs.toNat ∧ lastTick.toNat + tuning.useTimeMs.toNat ≤ 2 ^ 32) :
    (state.observeDriveEvent tuning lastTick eventKind false).1.Agrees tuning (c.use tuning lastTick.toNat) := by
  have hcounted : state.counted tuning eventKind false = { state with
      totalBoosterUses := state.totalBoosterUses + 1
      pendingBoosterUses :=
        if tuning.enabled = true ∧ state.active = false then state.pendingBoosterUses + 1 else state.pendingBoosterUses } :=
    if_pos ⟨rfl, hkind⟩
  unfold observeDriveEvent
  rw [hcounted]
  dsimp only
  rcases Bool.eq_false_or_eq_true state.active with hactive | hactive
  · obtain ⟨since, hsince⟩ := h.since_some hactive
    rw [if_pos (.inr (.inr hactive)), if_neg fun hif => by rw [hactive] at hif; cases hif.2]
    exact h.use_active hsince hfits lastTick.toNat
  · have hsince := h.since_none hactive
    simp only [if_pos (show tuning.enabled = true ∧ state.active = false from ⟨henabled, hactive⟩)]
    by_cases hcount : tuning.boosterUseCount.toNat = 0
    · -- no number of uses activates it
      have hnotDue : ¬c.Due tuning := fun hdue => hdue.2.1 hcount
      have hagrees := h.use_pending hsince hnotDue hfits lastTick.toNat
      rw [if_pos (.inr (.inl (UInt32.toNat_inj.1 hcount)))]
      exact hagrees
    · have hne : tuning.boosterUseCount ≠ 0 := fun heq => hcount (congrArg UInt32.toNat heq)
      have hgo : ¬(tuning.enabled = false ∨ tuning.boosterUseCount = 0 ∨ state.active = true) := by
        rintro (hoff | hzero | hon)
        · rw [henabled] at hoff
          cases hoff
        · exact hne hzero
        · rw [hactive] at hon
          cases hon
      rw [if_neg hgo]
      have huses := hfits hcount
      have htotal : (state.totalBoosterUses + 1).toNat = c.uses + 1 := by
        rw [UInt32.toNat_add, h.total hcount]
        exact Nat.mod_eq_of_lt huses
      have hbound := tuning.boosterUseCount.toNat_lt
      have hmod : c.inactiveUses % tuning.boosterUseCount.toNat < tuning.boosterUseCount.toNat :=
        Nat.mod_lt _ (Nat.pos_of_ne_zero hcount)
      have hpending : (state.pendingBoosterUses + 1).toNat = c.inactiveUses % tuning.boosterUseCount.toNat + 1 := by
        rw [UInt32.toNat_add, h.pending hcount]
        exact Nat.mod_eq_of_lt (by change _ + 1 < 2 ^ 32; omega)
      by_cases hdueNow : c.Due tuning
      · -- the use completes a cycle, and the pending uses are as many as an activation takes
        obtain ⟨hpos, hle⟩ := hdue hdueNow
        have hagrees := h.use_due hdueNow hfits hpos hle
        have hcycle : tuning.boosterUseCount.toNat ∣ c.inactiveUses + 1 := hdueNow.2.2
        have hfull : c.inactiveUses % tuning.boosterUseCount.toNat + 1 = tuning.boosterUseCount.toNat := by
          have hzero := Nat.mod_eq_zero_of_dvd hcycle
          rw [← Nat.mod_add_mod] at hzero
          by_contra hshort
          rw [Nat.mod_eq_of_lt (by omega)] at hzero
          omega
        have hcompleted : ¬((state.totalBoosterUses + 1) / tuning.boosterUseCount ≤ state.activationCount ∨
            lastTick < state.activeUntilMs) := by
          rintro (hle | hlater)
          · rw [UInt32.le_iff_toNat_le, UInt32.toNat_div, htotal, h.cycles hcount] at hle
            have hdiv : (c.inactiveUses + 1) / tuning.boosterUseCount.toNat ≤ (c.uses + 1) / tuning.boosterUseCount.toNat :=
              Nat.div_le_div_right (Nat.succ_le_succ h.inactive)
            rw [Nat.succ_div_of_dvd hcycle] at hdiv
            omega
          · rw [h.noDeadline hsince] at hlater
            exact UInt32.not_lt_zero hlater
        rw [if_neg hcompleted]
        have hexact : state.pendingBoosterUses + 1 = tuning.boosterUseCount :=
          UInt32.toNat_inj.1 (hpending.trans hfull)
        unfold setActive
        rw [if_neg (by rw [henabled, hactive]; simp), if_neg (fun hshort => hshort.2 hexact), if_pos rfl]
        exact hagrees
      · have hagrees := h.use_pending hsince hdueNow hfits lastTick.toNat
        split
        · exact hagrees
        · have hshort : state.pendingBoosterUses + 1 ≠ tuning.boosterUseCount := by
            intro heq
            rw [heq] at hpending
            refine hdueNow ⟨hsince, hcount, Nat.dvd_of_mod_eq_zero ?_⟩
            rw [← Nat.mod_add_mod, ← hpending, Nat.mod_self]
          unfold setActive
          split
          · exact hagrees
          · rw [if_pos ⟨rfl, hshort⟩]
            exact hagrees

/-- A tick no earlier than the last one. -/
theorem tick (h : state.Agrees tuning c) (henabled : tuning.enabled = true) (now : UInt32) :
    (state.tick tuning now).1.Agrees tuning (c.tick tuning now.toNat) := by
  unfold ChargerState.tick
  cases hsince : c.since with
  | none =>
    have hactive : state.active = false := by
      rw [h.active, hsince]
      rfl
    have htick : c.tick tuning now.toNat = c := by
      unfold LocalCharger.tick
      rw [hsince]
      cases c
      cases hsince
      rfl
    rw [if_pos (.inr hactive), htick]
    exact h
  | some since =>
    have hactive : state.active = true := by
      rw [h.active, hsince]
      rfl
    obtain ⟨huntil, hpos, hle⟩ := h.deadline since hsince
    have hnow := now.toNat_lt
    have hzero : state.activeUntilMs = 0 ↔ since + tuning.useTimeMs.toNat = 2 ^ 32 := by
      rw [← UInt32.toNat_inj, huntil]
      change _ % 2 ^ 32 = 0 ↔ _
      omega
    rw [if_neg (by rw [henabled, hactive]; simp)]
    by_cases hlate : state.activeUntilMs ≠ 0 ∧ state.activeUntilMs < now
    · have hlateNat := UInt32.lt_iff_toNat_lt.1 hlate.2
      rw [huntil, Nat.mod_eq_of_lt (Nat.lt_of_le_of_ne hle (mt hzero.2 hlate.1))] at hlateNat
      have htick : c.tick tuning now.toNat = { c with since := none } := by
        unfold LocalCharger.tick
        rw [hsince, Option.filter_some, if_neg (by simp; omega)]
      rw [if_pos hlate, htick]
      unfold setActive
      rw [if_neg (by rw [henabled, hactive]; simp), if_neg (by simp), if_neg (by simp)]
      refine ⟨rfl, h.total, h.inactive, h.cycles, fun hcount => ?_, fun hsome => absurd rfl hsome, fun _ hnone => ?_,
        fun _ => rfl⟩
      · have hdvd : tuning.boosterUseCount.toNat ∣ c.inactiveUses := h.complete (by rw [hsince]; exact Option.some_ne_none since)
        exact (Nat.mod_eq_zero_of_dvd hdvd).symm
      · cases hnone
    · have hlateNat : now.toNat ≤ since + tuning.useTimeMs.toNat := by
        by_cases hmax : since + tuning.useTimeMs.toNat = 2 ^ 32
        · omega
        · have hlt := mt UInt32.lt_iff_toNat_lt.2 fun hlt => hlate ⟨mt hzero.1 hmax, hlt⟩
          rw [huntil, Nat.mod_eq_of_lt (Nat.lt_of_le_of_ne hle hmax)] at hlt
          exact Nat.le_of_not_lt hlt
      have htick : c.tick tuning now.toNat = c := by
        unfold LocalCharger.tick
        rw [hsince, Option.filter_some, if_pos (by simp; omega), ← hsince]
      rw [if_neg hlate, htick]
      exact h

end ChargerState.Agrees

end P5136.Xun
