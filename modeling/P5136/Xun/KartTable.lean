import P5136.Xun.PhysicsRuntime

/-!
# The table of karts

What a call does to the table: it uses one slot, which becomes the kart's, and leaves the others alone. The active karts are
counted throughout.
-/

namespace P5136.Xun

namespace PhysicsRuntime

open Function SlotTable

variable {κ ν : Type} {g g' : PhysicsRuntime κ ν} {kart : κ} {slot : Fin 32}

/-- The slots whose charger is active. -/
def active (g : PhysicsRuntime κ ν) (slot : Fin 32) : Bool := (g.karts slot).charger.active

/-- The counter of the active karts is their number. -/
def Counted (g : PhysicsRuntime κ ν) : Prop := g.probe.activeKarts.toNat = count g.active

/-- The profile and its local kart are the same. -/
structure SameProfile (g g' : PhysicsRuntime κ ν) : Prop where
  tuning : g'.tuning = g.tuning
  localKart : g'.localKart = g.localKart
  profileGeneration : g'.profileGeneration = g.profileGeneration
  profileKartId : g'.profileKartId = g.profileKartId

theorem SameProfile.refl (g : PhysicsRuntime κ ν) : g.SameProfile g := ⟨rfl, rfl, rfl, rfl⟩

theorem SameProfile.trans {g₁ g₂ g₃ : PhysicsRuntime κ ν} (h : g₁.SameProfile g₂) (h' : g₂.SameProfile g₃) : g₁.SameProfile g₃ :=
  ⟨h'.tuning.trans h.tuning, h'.localKart.trans h.localKart, h'.profileGeneration.trans h.profileGeneration,
    h'.profileKartId.trans h.profileKartId⟩

theorem sameProfile_set (g : PhysicsRuntime κ ν) (slot : Fin 32) (entry : TrackedKart κ ν) : g.SameProfile (g.set slot entry) :=
  ⟨rfl, rfl, rfl, rfl⟩

@[simp] theorem karts_withoutActive (g : PhysicsRuntime κ ν) : g.withoutActive.karts = g.karts := by
  unfold withoutActive
  split
  · rfl
  · rfl

theorem sameProfile_withoutActive (g : PhysicsRuntime κ ν) : g.SameProfile g.withoutActive := by
  unfold withoutActive
  split
  · exact ⟨rfl, rfl, rfl, rfl⟩
  · exact .refl g

@[simp] theorem karts_discardState (g : PhysicsRuntime κ ν) (slot : Fin 32) :
    (g.discardState slot).karts = update g.karts slot {} := by
  unfold discardState
  split
  · exact congrArg (fun karts => update karts slot {}) g.karts_withoutActive
  · rfl

theorem sameProfile_discardState (g : PhysicsRuntime κ ν) (slot : Fin 32) : g.SameProfile (g.discardState slot) := by
  unfold discardState
  split
  · exact g.sameProfile_withoutActive.trans (sameProfile_set _ slot {})
  · exact sameProfile_set g slot {}

@[simp] theorem karts_recordTransition (g : PhysicsRuntime κ ν) (transition : ChargerTransition) :
    (g.recordTransition transition).karts = g.karts := by
  cases transition with
  | none => rfl
  | activated => rfl
  | deactivated => exact karts_withoutActive _

theorem sameProfile_recordTransition (g : PhysicsRuntime κ ν) (transition : ChargerTransition) :
    g.SameProfile (g.recordTransition transition) := by
  cases transition with
  | none => exact .refl g
  | activated => exact ⟨rfl, rfl, rfl, rfl⟩
  | deactivated =>
    unfold recordTransition
    refine SameProfile.trans ?_ (sameProfile_withoutActive _)
    exact ⟨rfl, rfl, rfl, rfl⟩

theorem sameProfile_transit (g : PhysicsRuntime κ ν) (slot : Fin 32) (next : ChargerState × ChargerTransition) :
    g.SameProfile (g.transit slot next) :=
  (sameProfile_set g slot _).trans (sameProfile_recordTransition _ _)

/-- The keys after an entry was put into a slot. -/
theorem key_of_update {entry : TrackedKart κ ν} (hkarts : g'.karts = update g.karts slot entry) :
    g'.key = update g.key slot entry.key := by
  have h := comp_update (fun entry : TrackedKart κ ν => entry.key) g.karts slot entry
  rw [← hkarts] at h
  exact h

/-! ## The number of active karts -/

/-- Another entry in a slot marks the slot as active or not. -/
theorem active_set (g : PhysicsRuntime κ ν) (slot : Fin 32) (entry : TrackedKart κ ν) :
    (g.set slot entry).active = update g.active slot entry.charger.active :=
  comp_update (fun entry : TrackedKart κ ν => entry.charger.active) g.karts slot entry

/-- The number of active karts after another entry is put into a slot. -/
theorem count_set (g : PhysicsRuntime κ ν) (slot : Fin 32) (entry : TrackedKart κ ν) :
    count (g.set slot entry).active + (g.active slot).toNat = count g.active + entry.charger.active.toNat := by
  rw [active_set]
  exact count_update g.active slot entry.charger.active

/-- An entry that is as active as the one before leaves the number as it is. -/
theorem Counted.set (h : g.Counted) {entry : TrackedKart κ ν} (hactive : entry.charger.active = g.active slot) :
    (g.set slot entry).Counted := by
  have hcount := g.count_set slot entry
  rw [hactive] at hcount
  exact h.trans (by omega)

/-- The active karts without one are one fewer, when there is one. -/
theorem activeKarts_withoutActive (h : 0 < g.probe.activeKarts.toNat) :
    g.withoutActive.probe.activeKarts.toNat = g.probe.activeKarts.toNat - 1 := by
  unfold withoutActive
  have hne : g.probe.activeKarts ≠ 0 := by
    intro hzero
    rw [hzero] at h
    exact absurd h (Nat.lt_irrefl 0)
  rw [if_pos hne]
  exact UInt32.toNat_sub_of_le _ _ (UInt32.le_iff_toNat_le.2 h)

/-- An entry that is no longer active is counted off. -/
theorem Counted.withoutActive (h : g.Counted) (hactive : g.active slot = true) {entry : TrackedKart κ ν}
    (hentry : entry.charger.active = false) : (g.withoutActive.set slot entry).Counted := by
  have hpos : 0 < g.probe.activeKarts.toNat := by
    rw [h]
    exact count_pos hactive
  have hcount := g.count_set slot entry
  rw [hactive, hentry, Bool.toNat_true, Bool.toNat_false] at hcount
  have hsame : (g.withoutActive.set slot entry).active = (g.set slot entry).active := by
    rw [active_set, active_set]
    unfold active
    rw [karts_withoutActive]
  have hprobe := activeKarts_withoutActive hpos
  unfold Counted at h ⊢
  rw [hsame]
  change g.withoutActive.probe.activeKarts.toNat = _
  omega

/-- Discarding an entry keeps the count. -/
theorem Counted.discardState (h : g.Counted) (slot : Fin 32) : (g.discardState slot).Counted := by
  unfold PhysicsRuntime.discardState
  split
  · rename_i hactive
    exact h.withoutActive hactive rfl
  · rename_i hinactive
    exact h.set (Bool.eq_false_iff.2 hinactive).symm

/-- So does a transition that tells what happened. -/
theorem Counted.transit (h : g.Counted) {next : ChargerState × ChargerTransition}
    (htells : next.2.Tells (g.active slot) next.1.active) : (g.transit slot next).Counted := by
  obtain ⟨state, transition⟩ := next
  unfold PhysicsRuntime.transit
  cases transition with
  | none => exact h.set htells
  | activated =>
    obtain ⟨hbefore, hafter⟩ := htells
    have hcount := g.count_set slot { g.karts slot with charger := state }
    have hle := count_le (g.set slot { g.karts slot with charger := state }).active
    rw [hbefore] at hcount
    change _ = _ + state.active.toNat at hcount
    rw [hafter, Bool.toNat_true, Bool.toNat_false] at hcount
    unfold Counted at h
    change (g.probe.activeKarts + 1).toNat = count (g.set slot { g.karts slot with charger := state }).active
    have hlt : g.probe.activeKarts.toNat + 1 < 2 ^ 32 := by omega
    rw [UInt32.toNat_add]
    exact (Nat.mod_eq_of_lt hlt).trans (by omega)
  | deactivated =>
    obtain ⟨hbefore, hafter⟩ := htells
    have hcounted : ({ g with probe := { g.probe with chargerDeactivations := g.probe.chargerDeactivations + 1 } } :
        PhysicsRuntime κ ν).Counted := h
    have hswap : ((g.set slot { g.karts slot with charger := state }).recordTransition .deactivated) =
        ({ g with probe := { g.probe with chargerDeactivations := g.probe.chargerDeactivations + 1 } } :
          PhysicsRuntime κ ν).withoutActive.set slot { g.karts slot with charger := state } := by
      unfold recordTransition PhysicsRuntime.withoutActive PhysicsRuntime.set
      dsimp only
      split
      · rfl
      · rfl
    rw [hswap]
    exact hcounted.withoutActive hbefore hafter

/-! ## Changes at one slot -/

/-- Only one slot changed, and its kart and visual stay. -/
structure At (slot : Fin 32) (g g' : PhysicsRuntime κ ν) : Prop where
  others : ∀ j, j ≠ slot → g'.karts j = g.karts j
  key : g'.key = g.key
  visual : (g'.karts slot).chargerVisual = (g.karts slot).chargerVisual

theorem At.trans {g₁ g₂ g₃ : PhysicsRuntime κ ν} (h : At slot g₁ g₂) (h' : At slot g₂ g₃) : At slot g₁ g₃ :=
  ⟨fun j hj => (h'.others j hj).trans (h.others j hj), h'.key.trans h.key, h'.visual.trans h.visual⟩

/-- Another entry of the same kart with the same visual. -/
theorem At.of_update {entry : TrackedKart κ ν} (hkarts : g'.karts = update g.karts slot entry)
    (hkey : entry.key = (g.karts slot).key) (hvisual : entry.chargerVisual = (g.karts slot).chargerVisual) : At slot g g' where
  others j hj := by rw [hkarts, update_of_ne hj]
  key := by
    rw [key_of_update hkarts, hkey]
    exact update_eq_self slot g.key
  visual := by rw [hkarts, update_self, hvisual]

theorem at_transit (g : PhysicsRuntime κ ν) (slot : Fin 32) (next : ChargerState × ChargerTransition) :
    At slot g (g.transit slot next) :=
  .of_update (karts_recordTransition _ _) rfl rfl

theorem at_noteTick (g : PhysicsRuntime κ ν) (slot : Fin 32) (now : UInt32) : At slot g (g.noteTick slot now) :=
  .of_update rfl rfl rfl

/-! ## The slot of a call -/

/-- What a search for a kart makes of the slot it ends at. -/
inductive Allocates (g : PhysicsRuntime κ ν) (kart : κ) (now : UInt32) (resetOnTimeRewind : Bool) (slot : Fin 32) :
    TrackedKart κ ν → Prop where
  | kept (hkey : g.key slot = some kart) (htime : ¬(resetOnTimeRewind = true ∧ now < g.lastTick slot)) :
    Allocates g kart now resetOnTimeRewind slot (g.karts slot)
  | rewound (hkey : g.key slot = some kart) (hreset : resetOnTimeRewind = true) (htime : now < g.lastTick slot) :
    Allocates g kart now resetOnTimeRewind slot
      { key := some kart, chargerVisual := (g.karts slot).chargerVisual, visualActive := (g.karts slot).visualActive }
  | fresh (huntracked : ∀ j, g.key j ≠ some kart) (hspared : ∀ l, g.localKart = some l → g.key slot ≠ some l) :
    Allocates g kart now resetOnTimeRewind slot { key := some kart }

/-- A slot that is used is the kart's. -/
theorem Allocates.key_eq {now : UInt32} {resetOnTimeRewind : Bool} {entry : TrackedKart κ ν}
    (h : Allocates g kart now resetOnTimeRewind slot entry) : entry.key = some kart := by
  cases h with
  | kept hkey _ => exact hkey
  | rewound _ _ _ => rfl
  | fresh _ _ => rfl

/-- No other slot is the kart's. -/
theorem Allocates.others {now : UInt32} {resetOnTimeRewind : Bool} {entry : TrackedKart κ ν}
    (h : Allocates g kart now resetOnTimeRewind slot entry) (hdistinct : SlotTable.Distinct g.key) (j : Fin 32) (hj : j ≠ slot) :
    g.key j ≠ some kart := by
  cases h with
  | kept hkey _ => exact fun hkart => hj (hdistinct j slot kart hkart hkey)
  | rewound hkey _ _ => exact fun hkart => hj (hdistinct j slot kart hkart hkey)
  | fresh huntracked _ => exact huntracked j

/-- A slot of another local kart is not used. -/
theorem Allocates.spared {now : UInt32} {resetOnTimeRewind : Bool} {entry : TrackedKart κ ν}
    (h : Allocates g kart now resetOnTimeRewind slot entry) {l : κ} (hlocal : g.localKart = some l) (hne : l ≠ kart) :
    g.key slot ≠ some l := by
  cases h with
  | kept hkey _ =>
    rw [hkey]
    exact fun heq => hne (Option.some.inj heq).symm
  | rewound hkey _ _ =>
    rw [hkey]
    exact fun heq => hne (Option.some.inj heq).symm
  | fresh _ hspared => exact hspared l hlocal

/-- A visual of the kart stays. -/
theorem Allocates.visual {now : UInt32} {resetOnTimeRewind : Bool} {entry : TrackedKart κ ν}
    (h : Allocates g kart now resetOnTimeRewind slot entry) (hkey : g.key slot = some kart) :
    entry.chargerVisual = (g.karts slot).chargerVisual := by
  cases h with
  | kept _ _ => rfl
  | rewound _ _ _ => rfl
  | fresh huntracked _ => exact absurd hkey (huntracked slot)

variable [DecidableEq κ]

/-- There is room for a kart: its slot lies behind no free one, and the local kart's is not the one it would take. -/
structure HasRoom (g : PhysicsRuntime κ ν) (kart : κ) : Prop where
  visible : ¬Behind g.key kart
  spares : Full g.key kart → ∀ l i, g.localKart = some l → g.key i = some l →
    ∃ j, g.age j < g.age i ∨ g.age j = g.age i ∧ j < i

/-- What a call makes of the table, when there is room for its kart. -/
theorem allocates_findOrAllocateKart (hdistinct : SlotTable.Distinct g.key) (hroom : g.HasRoom kart)
    (hfree : ∀ j, g.key j = none → g.active j = false) (now : UInt32) (resetOnTimeRewind : Bool) :
    ∃ slot entry, Allocates g kart now resetOnTimeRewind slot entry ∧
      (g.findOrAllocateKart kart now resetOnTimeRewind).2 = slot ∧
      (g.findOrAllocateKart kart now resetOnTimeRewind).1.karts = update g.karts slot entry ∧
      g.SameProfile (g.findOrAllocateKart kart now resetOnTimeRewind).1 ∧
      (g.Counted → (g.findOrAllocateKart kart now resetOnTimeRewind).1.Counted) := by
  have hsorted := List.pairwise_lt_finRange 32
  unfold findOrAllocateKart
  cases hsearch : g.search kart with
  | known i =>
    have hkey : g.key i = some kart := known_of_searchFrom hsearch
    simp only
    split
    · rename_i htime
      refine ⟨i, _, .rewound hkey htime.1 htime.2, rfl, ?_, (g.sameProfile_discardState i).trans (sameProfile_set _ _ _),
        fun h => (h.discardState i).set ?_⟩
      · change update (g.discardState i).karts i _ = _
        rw [karts_discardState, update_idem]
      · unfold active
        rw [karts_discardState, update_self]
    · rename_i htime
      exact ⟨i, _, .kept hkey htime, rfl, (update_eq_self i g.karts).symm, .refl g, id⟩
  | free i =>
    have hkey : g.key i = none := (free_of_searchFrom hsorted hsearch).1
    refine ⟨i, _, .fresh (untaken_of_free hdistinct hroom.visible hsearch) fun l _ => ?_, rfl, rfl,
      sameProfile_set _ _ _, fun h => h.set (hfree i hkey).symm⟩
    rw [hkey]
    exact (Option.some_ne_none l).symm
  | oldest i =>
    have hfull : Full g.key kart := fun j => full_of_searchFrom hsearch j (List.mem_finRange j)
    obtain ⟨-, -, hall⟩ := oldest_of_searchFrom hsorted (fun j _ => Fin.zero_le j) hsearch
    refine ⟨i, _, .fresh (fun j => (hfull j).2) fun l hlocal hl => ?_, rfl, ?_,
      (g.sameProfile_discardState i).trans (sameProfile_set _ _ _), fun h => (h.discardState i).set ?_⟩
    · -- some slot goes before the local kart's
      obtain ⟨j, hj⟩ := hroom.spares hfull l i hlocal hl
      obtain ⟨hle, hlt⟩ := hall j (List.mem_finRange j)
      rcases hj with hj | ⟨heq, hj⟩
      · exact absurd hj (not_lt.2 hle)
      · exact absurd heq (hlt hj).ne'
    · change update (g.discardState i).karts i _ = _
      rw [karts_discardState, update_idem]
    · unfold active
      rw [karts_discardState, update_self]

end PhysicsRuntime

end P5136.Xun
