import P5136.Xun.ChargerTracking

/-!
# Runs of the charger runtime

In every run whose calls find room for their karts, whose deadlines fit and whose uses can be counted, the table tracks each kart
once and runs the charger of the local kart by its law.
-/

namespace P5136.Xun

open Function SlotTable

variable {κ ν : Type}

/-! ## The visual -/

/-- An entry of the same kart with the same charger, which keeps its visual. -/
structure TrackedKart.SameCharger (entry entry' : TrackedKart κ ν) : Prop where
  key : entry'.key = entry.key
  lastTickMs : entry'.lastTickMs = entry.lastTickMs
  sawClientBoosterCounter : entry'.sawClientBoosterCounter = entry.sawClientBoosterCounter
  lastClientBoosterUses : entry'.lastClientBoosterUses = entry.lastClientBoosterUses
  charger : entry'.charger = entry.charger
  visual : ∀ v, entry.chargerVisual = some v → entry'.chargerVisual = some v

theorem TrackedKart.SameCharger.refl (entry : TrackedKart κ ν) : entry.SameCharger entry :=
  ⟨rfl, rfl, rfl, rfl, rfl, fun _ h => h⟩

theorem TrackedKart.SameCharger.trans {e₁ e₂ e₃ : TrackedKart κ ν} (h : e₁.SameCharger e₂) (h' : e₂.SameCharger e₃) :
    e₁.SameCharger e₃ :=
  ⟨h'.key.trans h.key, h'.lastTickMs.trans h.lastTickMs, h'.sawClientBoosterCounter.trans h.sawClientBoosterCounter,
    h'.lastClientBoosterUses.trans h.lastClientBoosterUses, h'.charger.trans h.charger, fun v hv => h'.visual v (h.visual v hv)⟩

namespace PhysicsRuntime

/-- Nothing but times and visuals changed. -/
structure OnlyVisual (g g' : PhysicsRuntime κ ν) : Prop where
  profile : g.SameProfile g'
  activeKarts : g'.probe.activeKarts = g.probe.activeKarts
  entries : ∀ slot, (g.karts slot).SameCharger (g'.karts slot)

variable {g g' : PhysicsRuntime κ ν} {slot : Fin 32}

theorem OnlyVisual.refl (g : PhysicsRuntime κ ν) : g.OnlyVisual g := ⟨.refl g, rfl, fun _ => .refl _⟩

theorem OnlyVisual.trans {g₁ g₂ g₃ : PhysicsRuntime κ ν} (h : g₁.OnlyVisual g₂) (h' : g₂.OnlyVisual g₃) : g₁.OnlyVisual g₃ :=
  ⟨h.profile.trans h'.profile, h'.activeKarts.trans h.activeKarts, fun slot => (h.entries slot).trans (h'.entries slot)⟩

theorem onlyVisual_set {entry : TrackedKart κ ν} (h : (g.karts slot).SameCharger entry) : g.OnlyVisual (g.set slot entry) := by
  refine ⟨sameProfile_set g slot entry, rfl, fun j => ?_⟩
  change (g.karts j).SameCharger (update g.karts slot entry j)
  by_cases hj : j = slot
  · subst hj
    rw [update_self]
    exact h
  · rw [update_of_ne hj]
    exact .refl _

/-- The other counters are no matter. -/
theorem OnlyVisual.withProbe (h : g.OnlyVisual g') {probe : PhysicsProbe} (hprobe : probe.activeKarts = g'.probe.activeKarts) :
    g.OnlyVisual { g' with probe := probe } :=
  ⟨⟨h.profile.tuning, h.profile.localKart, h.profile.profileGeneration, h.profile.profileKartId⟩,
    hprobe.trans h.activeKarts, h.entries⟩

theorem onlyVisual_planVisual (g : PhysicsRuntime κ ν) (slot : Fin 32) (now : UInt32) : g.OnlyVisual (g.planVisual slot now).1 := by
  unfold planVisual
  dsimp only
  split
  · refine OnlyVisual.withProbe (onlyVisual_set ?_) rfl
    exact ⟨rfl, rfl, rfl, rfl, rfl, fun _ h => h⟩
  · split
    · exact .refl g
    · exact .refl g

theorem onlyVisual_retainVisual (g : PhysicsRuntime κ ν) (slot : Fin 32) (created : Option ν) :
    g.OnlyVisual (g.retainVisual slot created).1 := by
  unfold retainVisual
  dsimp only
  split
  · rename_i hretain
    refine onlyVisual_set ⟨rfl, rfl, rfl, rfl, rfl, fun v hv => ?_⟩
    rw [hv] at hretain
    cases hretain.2.2.2
  · exact onlyVisual_set ⟨rfl, rfl, rfl, rfl, rfl, fun _ h => h⟩

theorem onlyVisual_changeVisual (g : PhysicsRuntime κ ν) (slot : Fin 32) (activate changed : Bool) :
    g.OnlyVisual (g.changeVisual slot activate changed) := by
  unfold changeVisual
  split
  · refine OnlyVisual.withProbe (onlyVisual_set ?_) ?_
    · exact ⟨rfl, rfl, rfl, rfl, rfl, fun _ h => h⟩
    · split
      · rfl
      · rfl
  · exact .refl g

theorem onlyVisual_noteTickLog (g : PhysicsRuntime κ ν) (slot : Fin 32) (now : UInt32) : g.OnlyVisual (g.noteTickLog slot now) := by
  unfold noteTickLog
  dsimp only
  split
  · exact onlyVisual_set ⟨rfl, rfl, rfl, rfl, rfl, fun _ h => h⟩
  · exact .refl g

variable [DecidableEq κ]

/-- Whatever the renderer answers, only the visual changes. -/
theorem onlyVisual_synchronizeChargerVisual (g : PhysicsRuntime κ ν) (kart : κ) (now : UInt32) (created : Option ν)
    (changed : Bool) : g.OnlyVisual (g.synchronizeChargerVisual kart now created changed) := by
  unfold synchronizeChargerVisual
  split
  · exact .refl g
  · rename_i slot hslot
    split
    · exact .refl g
    · have hplan := g.onlyVisual_planVisual slot now
      cases hp : g.planVisual slot now with
      | mk g₁ action =>
        rw [hp] at hplan
        cases action with
        | none => exact hplan
        | start => exact hplan.trans (g₁.onlyVisual_changeVisual slot true changed)
        | stop => exact hplan.trans (g₁.onlyVisual_changeVisual slot false changed)
        | create =>
          have hretain := g₁.onlyVisual_retainVisual slot created
          dsimp only
          cases hr : g₁.retainVisual slot created with
          | mk g₂ retained =>
            rw [hr] at hretain
            cases retained with
            | true => exact (hplan.trans hretain).trans (g₂.onlyVisual_changeVisual slot true changed)
            | false => exact hplan.trans hretain

omit [DecidableEq κ] in
/-- The keys are the same. -/
theorem OnlyVisual.key_eq (h : g.OnlyVisual g') : g'.key = g.key := funext fun slot => (h.entries slot).key

omit [DecidableEq κ] in
/-- The count is. -/
theorem OnlyVisual.counted (h : g.OnlyVisual g') (hcounted : g.Counted) : g'.Counted := by
  have hactive : g'.active = g.active := funext fun slot => congrArg ChargerState.active (h.entries slot).charger
  unfold Counted at hcounted ⊢
  rw [h.activeKarts, hactive]
  exact hcounted

/-- The law is followed as before. -/
theorem OnlyVisual.follows (h : g.OnlyVisual g') {law : ChargerLaw κ} (hfollows : g.Follows law) : g'.Follows law := by
  refine ⟨h.profile.tuning.trans hfollows.tuning, h.profile.profileGeneration.trans hfollows.generation,
    h.profile.profileKartId.trans hfollows.kartId, h.profile.localKart.trans hfollows.localKart, fun slot kart hkey => ?_,
    fun slot hkey => ?_, fun c hc => ?_, fun c hc => ?_⟩
  · rw [h.key_eq] at hkey
    have hfits := hfollows.fits slot kart hkey
    have hsame := h.entries slot
    rw [h.profile.tuning]
    refine ⟨fun hnone => ?_, fun hnone => ?_, fun c hc => ?_, fun c hc => ?_, fun c hc => ?_⟩
    · rw [hsame.lastTickMs]
      exact hfits.unticked hnone
    · rw [hsame.charger]
      exact hfits.idle hnone
    · rw [hsame.lastTickMs]
      exact hfits.ticked c hc
    · rw [hsame.sawClientBoosterCounter, hsame.lastClientBoosterUses]
      exact hfits.client c hc
    · rw [hsame.charger]
      exact hfits.agrees c hc
  · rw [h.key_eq] at hkey
    rw [(h.entries slot).charger]
    exact hfollows.free slot hkey
  · rw [h.profile.tuning]
    exact hfollows.enabled c hc
  · rw [h.key_eq]
    exact hfollows.tracked c hc

/-! ## One call -/

/-- The table and the charger are sound. -/
structure Sound (g : PhysicsRuntime κ ν) (law : ChargerLaw κ) : Prop where
  distinct : SlotTable.Distinct g.key
  counted : g.Counted
  follows : g.Follows law

/-- A counted use under a profile: a kart that becomes the local one has kept its last tick, the uses can be counted, and an
activation has a last tick and a deadline. -/
structure Countable (g : PhysicsRuntime κ ν) (law : ChargerLaw κ) (kart : κ) (after : UInt32) : Prop where
  remembers : law.charger = none → law.tuning.enabled = true →
    ∀ t, law.ticks kart = some t → ∃ slot, g.key slot = some kart ∧ g.age slot = t
  uses : ∀ c, law.observed kart after true = some c → c.kart = kart → law.tuning.boosterUseCount.toNat ≠ 0 → c.uses + 1 < 2 ^ 32
  deadline : ∀ c, law.observed kart after true = some c → c.kart = kart → c.Due law.tuning →
    ∃ t, law.ticks kart = some t ∧ 0 < t + law.tuning.useTimeMs.toNat ∧ t + law.tuning.useTimeMs.toNat ≤ 2 ^ 32

/-- What a call asks of the state before it. -/
def Allowed (g : PhysicsRuntime κ ν) (law : ChargerLaw κ) : Call κ ν → Prop
  | .observeDriveEvent (some kart) eventKind accepted before after =>
    g.HasRoom kart ∧ (shouldCountBoosterEvent eventKind (accepted != 0) before after = true → g.Countable law kart after)
  | .observePhysicsTick (some kart) _ _ _ => g.HasRoom kart
  | _ => True

/-- What a call is to do: each kart is tracked once, the active karts are counted, a visual outlives a profile and its entry is
the one its kart finds, the local kart's entry is not taken for another one, and its charger is active when the law says so. -/
structure Lawful (g : PhysicsRuntime κ ν) (law : ChargerLaw κ) (call : Call κ ν) : Prop where
  distinct : SlotTable.Distinct (g.perform call).key
  counted : (g.perform call).Counted
  outlives : call.kart = none → ∀ slot v, g.key slot ≠ none → (g.karts slot).chargerVisual = some v →
    (g.perform call).key slot = g.key slot ∧ ((g.perform call).karts slot).chargerVisual = some v
  finds : ∀ kart, call.kart = some kart → ∀ slot v, g.key slot = some kart → (g.karts slot).chargerVisual = some v →
    g.search kart = .known slot ∧ (g.perform call).key slot = some kart ∧ ((g.perform call).karts slot).chargerVisual = some v
  spares : ∀ kart, call.kart = some kart → ∀ l slot, g.localKart = some l → l ≠ kart → g.key slot = some l →
    (g.perform call).karts slot = g.karts slot
  localKart : (g.perform call).localKart = (law.perform call).charger.map LocalCharger.kart
  charger : ∀ c, (law.perform call).charger = some c →
    ∃ slot, (g.perform call).key slot = some c.kart ∧ (g.perform call).active slot = c.since.isSome

variable {law law' : ChargerLaw κ} {kart : κ} {entry : TrackedKart κ ν}

/-- The charger of a sound state is active when the law says so. -/
theorem Sound.charger (h : g.Sound law) {c : LocalCharger κ} (hc : law.charger = some c) :
    ∃ slot, g.key slot = some c.kart ∧ g.active slot = c.since.isSome := by
  obtain ⟨slot, hkey⟩ := h.follows.tracked c hc
  have hof : law.chargerOf c.kart = some c := ChargerLaw.chargerOf_eq_some.2 ⟨hc, rfl⟩
  exact ⟨slot, hkey, ((h.follows.fits slot c.kart hkey).agrees c hof).active⟩

/-- What a call of a kart leaves of the table. -/
structure Uses (g : PhysicsRuntime κ ν) (kart : κ) (slot : Fin 32) (g' : PhysicsRuntime κ ν) : Prop where
  spared : ∀ l, g.localKart = some l → l ≠ kart → g.key slot ≠ some l
  others : ∀ l, g.localKart = some l → l ≠ kart → ∀ j, j ≠ slot → g'.karts j = g.karts j
  own : ∀ i, g.key i = some kart → i = slot
  key : g'.key slot = some kart
  visual : ∀ v, g.key slot = some kart → (g.karts slot).chargerVisual = some v → (g'.karts slot).chargerVisual = some v

/-- A call of a kart that leaves a sound state is lawful. -/
theorem Uses.lawful {call : Call κ ν} (hkart : call.kart = some kart) (hdistinct : SlotTable.Distinct g.key) (hroom : g.HasRoom kart)
    (hu : g.Uses kart slot (g.perform call)) (hs : (g.perform call).Sound (law.perform call)) : g.Lawful law call where
  distinct := hs.distinct
  counted := hs.counted
  outlives hnone := by
    rw [hkart] at hnone
    cases hnone
  finds kart' hkart' i v hkey hv := by
    obtain rfl := Option.some.inj (hkart.symm.trans hkart')
    refine ⟨searchFrom_eq_known hdistinct hroom.visible hkey 0, ?_⟩
    obtain rfl := hu.own i hkey
    exact ⟨hu.key, hu.visual v hkey hv⟩
  spares kart' hkart' l j hlocal hne hl := by
    obtain rfl := Option.some.inj (hkart.symm.trans hkart')
    exact hu.others l hlocal hne j fun hj => hu.spared l hlocal hne (hj ▸ hl)
  localKart := hs.follows.localKart
  charger c hc := hs.charger hc

/-- More calls are no matter. -/
theorem Sound.withProbe (h : g.Sound law) {probe : PhysicsProbe} (hprobe : probe.activeKarts = g.probe.activeKarts) :
    ({ g with probe := probe } : PhysicsRuntime κ ν).Sound law :=
  have hvisual := (OnlyVisual.refl g).withProbe hprobe
  ⟨h.distinct, hvisual.counted h.counted, hvisual.follows h.follows⟩

/-- The slots after a search. -/
theorem Sound.allocated (h : g.Sound law) {now : UInt32} {resetOnTimeRewind : Bool}
    (ha : Allocates g kart now resetOnTimeRewind slot entry) (hkarts : g'.karts = update g.karts slot entry) :
    SlotTable.Distinct g'.key ∧ g'.key slot = some kart := by
  have hkeys := key_of_update hkarts
  rw [hkeys, ha.key_eq]
  exact ⟨h.distinct.update (ha.others h.distinct), update_self _ _ _⟩

omit [DecidableEq κ] in
/-- What such a call leaves of the table. -/
theorem Allocates.uses {now : UInt32} {resetOnTimeRewind : Bool} (ha : Allocates g kart now resetOnTimeRewind slot entry)
    (hdistinct : SlotTable.Distinct g.key) (hkarts : g'.karts = update g.karts slot entry) {g₂ : PhysicsRuntime κ ν}
    (hat : At slot g' g₂) : g.Uses kart slot g₂ where
  spared l hlocal hne := ha.spared hlocal hne
  others l _ _ j hj := by rw [hat.others j hj, hkarts, update_of_ne hj]
  own i hi := by
    by_contra hne
    exact ha.others hdistinct i hne hi
  key := by rw [hat.key, key_of_update hkarts, update_self, ha.key_eq]
  visual v hkey hv := by rw [hat.visual, hkarts, update_self, ha.visual hkey, hv]

omit [DecidableEq κ] in
/-- The counters are no part of it. -/
theorem Uses.ofProbe {probe : PhysicsProbe} (h : ({ g with probe := probe } : PhysicsRuntime κ ν).Uses kart slot g') :
    g.Uses kart slot g' := ⟨h.spared, h.others, h.own, h.key, h.visual⟩

/-- An event of a kart. -/
theorem Sound.observeDriveEvent (h : g.Sound law) (hroom : g.HasRoom kart) {eventKind accepted before after : UInt32}
    (hcountable : shouldCountBoosterEvent eventKind (accepted != 0) before after = true → g.Countable law kart after) :
    ∃ slot, g.Uses kart slot (g.observeDriveEvent (some kart) eventKind accepted before after) ∧
      (g.observeDriveEvent (some kart) eventKind accepted before after).Sound
        (law.event kart after (shouldCountBoosterEvent eventKind (accepted != 0) before after)) := by
  unfold PhysicsRuntime.observeDriveEvent
  dsimp only
  generalize hcounted : shouldCountBoosterEvent eventKind (accepted != 0) before after = counted at *
  have h₀ : ({ g with probe := { g.probe with driveEventCalls := g.probe.driveEventCalls + 1 } } : PhysicsRuntime κ ν).Sound law :=
    h.withProbe rfl
  have hroom₀ : ({ g with probe := { g.probe with driveEventCalls := g.probe.driveEventCalls + 1 } } :
      PhysicsRuntime κ ν).HasRoom kart := ⟨hroom.visible, hroom.spares⟩
  have hfree : ∀ j, g.key j = none → g.active j = false := fun j hj => congrArg ChargerState.active (h.follows.free j hj)
  obtain ⟨slot₀, entry, ha, hslot, hkarts, hprofile, hcount⟩ :=
    allocates_findOrAllocateKart h₀.distinct hroom₀ hfree 0 false
  generalize findOrAllocateKart _ kart 0 false = found at *
  obtain ⟨g₁, slot⟩ := found
  dsimp only at hslot hkarts hprofile hcount ⊢
  subst hslot
  obtain ⟨hdistinct₁, hkey₁⟩ := h₀.allocated ha hkarts
  have hfollows₁ : g₁.Follows law := h₀.follows.allocate h₀.distinct ha hkarts hprofile
  -- a kart that becomes the local one has kept its entry
  have hremembers : law.charger = none → counted = true → law.tuning.enabled = true →
      ∀ t, law.ticks kart = some t → g₁.age slot = t := by
    intro hnone huse henabled t ht
    obtain ⟨slot', hkey', hage⟩ := (hcountable huse).remembers hnone henabled t ht
    cases ha with
    | kept hkey _ =>
      obtain rfl := h.distinct slot' slot kart hkey' hkey
      have hself : g₁.karts slot' = g.karts slot' := by rw [hkarts, update_self]
      exact (congrArg (fun entry => entry.lastTickMs.toNat) hself).trans hage
    | rewound _ hreset _ => cases hreset
    | fresh huntracked _ => exact absurd hkey' (huntracked slot')
  have hat := g₁.at_observe slot kart after counted
  have hfollows₂ := hfollows₁.observe hdistinct₁ hkey₁ after hremembers
  have hcounted₂ : ((g₁.noteClientCounter slot kart after).bindLocalKart kart counted).Counted := by
    obtain ⟨hkarts₂, hprobe₂, -⟩ := bindLocalKart_rest (g₁.noteClientCounter slot kart after) kart counted
    have hactive : ((g₁.noteClientCounter slot kart after).bindLocalKart kart counted).active =
        (g₁.noteClientCounter slot kart after).active := by
      unfold active
      rw [hkarts₂]
    unfold Counted
    rw [hprobe₂, hactive]
    exact (hcount h₀.counted).noteClientCounter slot kart after
  generalize (g₁.noteClientCounter slot kart after).bindLocalKart kart counted = g₂ at *
  have hkey₂ : g₂.key slot = some kart := (congrFun hat.key slot).trans hkey₁
  have hdistinct₂ : SlotTable.Distinct g₂.key := hat.key ▸ hdistinct₁
  split
  · -- the kart is not the local one
    rename_i hlocal
    refine ⟨slot, (ha.uses h₀.distinct hkarts hat).ofProbe, hdistinct₂, hcounted₂, ?_⟩
    have hsame := hfollows₂.map_eq_self hlocal
      (f := fun c => if c.kart = kart ∧ counted = true then c.use law.tuning ((law.ticks kart).getD 0) else c)
      fun c hc => if_neg fun hand => hc hand.1
    rw [← hsame] at hfollows₂
    exact hfollows₂
  · rename_i hlocal
    have hat₃ := g₂.at_transit slot
      ((g₂.karts slot).charger.observeDriveEvent g₂.tuning (g₂.lastTick slot) eventKind.toUInt8 (!counted))
    refine ⟨slot, (ha.uses h₀.distinct hkarts (hat.trans hat₃)).ofProbe, ?_, hcounted₂.transit (ChargerState.tells_observeDriveEvent _ _ _ _ _), ?_⟩
    · rw [hat₃.key]
      exact hdistinct₂
    · have hobserved : ∀ c, ({ law with charger := law.observed kart after counted } : ChargerLaw κ).chargerOf kart = some c →
          counted = true → law.observed kart after true = some c ∧ c.kart = kart := by
        intro c hc huse
        obtain ⟨hcharger, hkart⟩ := ChargerLaw.chargerOf_eq_some.1 hc
        subst huse
        exact ⟨hcharger, hkart⟩
      exact hfollows₂.use hdistinct₂ hkey₂ (not_not.1 hlocal) (fun huse => boosterKind_of_counted (hcounted.trans huse))
        (fun huse c hc => (hcountable huse).uses c (hobserved c hc huse).1 (hobserved c hc huse).2)
        (fun huse c hc => (hcountable huse).deadline c (hobserved c hc huse).1 (hobserved c hc huse).2)

/-- A tick of a kart. -/
theorem Sound.observePhysicsTick (h : g.Sound law) (hroom : g.HasRoom kart) (now : UInt32) (created : Option ν) (changed : Bool) :
    ∃ slot, g.Uses kart slot (g.observePhysicsTick (some kart) now created changed) ∧
      (g.observePhysicsTick (some kart) now created changed).Sound (law.tick kart now.toNat) := by
  unfold PhysicsRuntime.observePhysicsTick
  dsimp only
  have h₀ : ({ g with probe := { g.probe with physicsTickCalls := g.probe.physicsTickCalls + 1 } } : PhysicsRuntime κ ν).Sound law :=
    h.withProbe rfl
  have hroom₀ : ({ g with probe := { g.probe with physicsTickCalls := g.probe.physicsTickCalls + 1 } } :
      PhysicsRuntime κ ν).HasRoom kart := ⟨hroom.visible, hroom.spares⟩
  have hfree : ∀ j, g.key j = none → g.active j = false := fun j hj => congrArg ChargerState.active (h.follows.free j hj)
  obtain ⟨slot₀, entry, ha, hslot, hkarts, hprofile, hcount⟩ :=
    allocates_findOrAllocateKart h₀.distinct hroom₀ hfree now true
  generalize findOrAllocateKart _ kart now true = found at *
  obtain ⟨g₁, slot⟩ := found
  dsimp only at hslot hkarts hprofile hcount ⊢
  subst hslot
  obtain ⟨hdistinct₁, hkey₁⟩ := h₀.allocated ha hkarts
  have hat := g₁.at_noteTick slot now
  have hfollows₂ : (g₁.noteTick slot now).Follows (law.noteTick kart now.toNat) :=
    h₀.follows.noteTick h₀.distinct ha hkarts hprofile
  have hcounted₂ : (g₁.noteTick slot now).Counted := (hcount h₀.counted).set rfl
  have hlocal₂ : (g₁.noteTick slot now).localKart = g.localKart := hprofile.localKart
  generalize g₁.noteTick slot now = g₂ at *
  have hkey₂ : g₂.key slot = some kart := (congrFun hat.key slot).trans hkey₁
  have hdistinct₂ : SlotTable.Distinct g₂.key := hat.key ▸ hdistinct₁
  split
  · -- another kart is the local one
    rename_i hlocal
    refine ⟨slot, (ha.uses h₀.distinct hkarts hat).ofProbe, hdistinct₂, hcounted₂, ?_⟩
    have hsame := hfollows₂.map_eq_self hlocal.2 (f := fun c => if c.kart = kart then c.tick law.tuning now.toNat else c)
      fun c hc => if_neg hc
    rw [← hsame] at hfollows₂
    exact hfollows₂
  · rename_i hlocal
    have hat₃ := g₂.at_transit slot ((g₂.karts slot).charger.tick g₂.tuning now)
    have hfollows₃ := hfollows₂.tick hdistinct₂ hkey₂ now
    have hcounted₃ : (g₂.transit slot ((g₂.karts slot).charger.tick g₂.tuning now)).Counted :=
      hcounted₂.transit (ChargerState.tells_tick _ _ _)
    have huses := (ha.uses h₀.distinct hkarts (hat.trans hat₃)).ofProbe
    generalize g₂.transit slot ((g₂.karts slot).charger.tick g₂.tuning now) = g₃ at *
    have hvisual := (g₃.onlyVisual_noteTickLog slot now).trans
      ((g₃.noteTickLog slot now).onlyVisual_synchronizeChargerVisual kart now created changed)
    refine ⟨slot, ⟨huses.spared, fun l hl hne => ?_, huses.own, ?_, fun v hkey hv => ?_⟩, ?_, hvisual.counted hcounted₃,
      hvisual.follows hfollows₃⟩
    · -- the local kart, if any, is this one
      rw [hlocal₂] at hlocal
      exact absurd ⟨hl ▸ Option.some_ne_none l, fun heq => hne (Option.some.inj (hl.symm.trans heq))⟩ hlocal
    · rw [hvisual.key_eq]
      exact huses.key
    · exact (hvisual.entries slot).visual v (huses.visual v hkey hv)
    · rw [hvisual.key_eq, hat₃.key]
      exact hdistinct₂

/-- A profile. -/
theorem Sound.applyServerProfile (h : g.Sound law) (tuning : ChargerTuning) (generation : UInt32) (kartId : UInt16) :
    (g.applyServerProfile tuning generation kartId).Sound (ChargerLaw.profile tuning generation kartId) := by
  have hentry : ∀ slot, ((g.applyServerProfile tuning generation kartId).karts slot).charger = {} ∧
      ((g.applyServerProfile tuning generation kartId).karts slot).lastTickMs = 0 ∧
      ∀ kart, (g.applyServerProfile tuning generation kartId).key slot = some kart → g.key slot = some kart := by
    intro slot
    unfold PhysicsRuntime.applyServerProfile key
    dsimp only
    split
    · exact ⟨rfl, rfl, fun _ hkey => hkey⟩
    · exact ⟨rfl, rfl, fun kart hkey => by cases hkey⟩
  refine ⟨fun i j kart hi hj => h.distinct i j kart ((hentry i).2.2 kart hi) ((hentry j).2.2 kart hj), ?_,
    rfl, rfl, rfl, rfl, fun slot kart _ => ?_, fun slot _ => (hentry slot).1, fun c hc => ?_, fun c hc => ?_⟩
  · exact (count_eq_zero fun slot => congrArg ChargerState.active (hentry slot).1).symm
  · exact .of_idle (fun _ => (hentry slot).2.1) (hentry slot).1
  · cases hc
  · cases hc

omit [DecidableEq κ] in
/-- An entry with a visual outlives a profile. -/
theorem outlives_applyServerProfile (g : PhysicsRuntime κ ν) (tuning : ChargerTuning) (generation : UInt32) (kartId : UInt16)
    {v : ν} (hkey : g.key slot ≠ none) (hv : (g.karts slot).chargerVisual = some v) :
    (g.applyServerProfile tuning generation kartId).key slot = g.key slot ∧
      ((g.applyServerProfile tuning generation kartId).karts slot).chargerVisual = some v := by
  have hkept : (g.karts slot).key.isSome ∧ (g.karts slot).chargerVisual.isSome := by
    rw [hv]
    exact ⟨Option.isSome_iff_ne_none.2 hkey, rfl⟩
  unfold applyServerProfile key
  dsimp only
  rw [if_pos hkept]
  exact ⟨rfl, hv⟩

/-- The table of a sound state after any call is sound, and the call was lawful. -/
theorem Sound.perform (h : g.Sound law) {call : Call κ ν} (hallowed : g.Allowed law call) :
    (g.perform call).Sound (law.perform call) ∧ g.Lawful law call := by
  -- a call without a kart leaves the visuals
  have hkartless : call.kart = none → (g.perform call).Sound (law.perform call) →
      (∀ slot v, g.key slot ≠ none → (g.karts slot).chargerVisual = some v →
        (g.perform call).key slot = g.key slot ∧ ((g.perform call).karts slot).chargerVisual = some v) →
      g.Lawful law call := by
    intro hnone hs houtlives
    refine ⟨hs.distinct, hs.counted, fun _ => houtlives, fun kart hkart => ?_, fun kart hkart => ?_, hs.follows.localKart,
      fun c hc => hs.charger hc⟩
    · rw [hnone] at hkart
      cases hkart
    · rw [hnone] at hkart
      cases hkart
  cases call with
  | applyServerProfile tuning generation kartId =>
    have hs := h.applyServerProfile tuning generation kartId
    exact ⟨hs, hkartless rfl hs fun slot v hkey hv => g.outlives_applyServerProfile tuning generation kartId hkey hv⟩
  | resetServerProfile =>
    have hsame : (g.tuning.enabled = false ∧ g.profileGeneration = 0 ∧ g.profileKartId = 0) ↔
        (law.tuning.enabled = false ∧ law.generation = 0 ∧ law.kartId = 0) := by
      rw [h.follows.tuning, h.follows.generation, h.follows.kartId]
    by_cases hoff : g.tuning.enabled = false ∧ g.profileGeneration = 0 ∧ g.profileKartId = 0
    · have hperform : g.perform .resetServerProfile = g := if_pos hoff
      have hlaw : law.perform (.resetServerProfile : Call κ ν) = law := if_pos (hsame.1 hoff)
      have hs : (g.perform .resetServerProfile).Sound (law.perform (.resetServerProfile : Call κ ν)) := by
        rw [hperform, hlaw]
        exact h
      refine ⟨hs, hkartless rfl hs fun slot v _ hv => ?_⟩
      rw [hperform]
      exact ⟨rfl, hv⟩
    · have hperform : g.perform .resetServerProfile = g.applyServerProfile {} 0 0 := if_neg hoff
      have hlaw : law.perform (.resetServerProfile : Call κ ν) = ChargerLaw.profile {} 0 0 := if_neg fun hon => hoff (hsame.2 hon)
      have hs : (g.perform .resetServerProfile).Sound (law.perform (.resetServerProfile : Call κ ν)) := by
        rw [hperform, hlaw]
        exact h.applyServerProfile {} 0 0
      refine ⟨hs, hkartless rfl hs fun slot v hkey hv => ?_⟩
      rw [hperform]
      exact g.outlives_applyServerProfile {} 0 0 hkey hv
  | observeDriveEvent kart eventKind accepted before after =>
    cases kart with
    | none => exact ⟨h, hkartless rfl h fun _ _ _ hv => ⟨rfl, hv⟩⟩
    | some kart =>
      obtain ⟨hroom, hcountable⟩ := hallowed
      obtain ⟨slot, huses, hs⟩ := h.observeDriveEvent hroom hcountable
      exact ⟨hs, huses.lawful rfl h.distinct hroom hs⟩
  | observePhysicsTick kart now created changed =>
    cases kart with
    | none => exact ⟨h, hkartless rfl h fun _ _ _ hv => ⟨rfl, hv⟩⟩
    | some kart =>
      have hroom : g.HasRoom kart := hallowed
      obtain ⟨slot, huses, hs⟩ := h.observePhysicsTick hroom now created changed
      exact ⟨hs, huses.lawful rfl h.distinct hroom hs⟩

/-! ## Runs -/

/-- Something holds of every call of a run, in the state before it. -/
def Along (P : PhysicsRuntime κ ν → ChargerLaw κ → Call κ ν → Prop) (g : PhysicsRuntime κ ν) (law : ChargerLaw κ) :
    List (Call κ ν) → Prop
  | [] => True
  | call :: calls => P g law call ∧ Along P (g.perform call) (law.perform call) calls

/-- The runtime that was just configured is sound. -/
theorem sound_configure (tuning : ChargerTuning) : (configure tuning : PhysicsRuntime κ ν).Sound { tuning := tuning } where
  distinct i j kart hi := by cases hi
  counted := (count_eq_zero fun _ => rfl).symm
  follows := by
    refine ⟨rfl, rfl, rfl, rfl, fun slot kart hkey => ?_, fun _ _ => rfl, fun c hc => ?_, fun c hc => ?_⟩
    · cases hkey
    · cases hc
    · cases hc

/-- From a sound state on, a run whose calls are all allowed is lawful. -/
theorem Sound.along (h : g.Sound law) {calls : List (Call κ ν)} (hallowed : Along Allowed g law calls) : Along Lawful g law calls := by
  induction calls generalizing g law with
  | nil => trivial
  | cons call calls ih =>
    obtain ⟨hs, hlawful⟩ := h.perform hallowed.1
    exact ⟨hlawful, ih hs hallowed.2⟩

/-- Every run of the runtime whose calls are all allowed is lawful. -/
theorem charger_tracking (tuning : ChargerTuning) (calls : List (Call κ ν))
    (hallowed : Along Allowed (configure tuning) { tuning := tuning } calls) :
    Along Lawful (configure tuning) { tuning := tuning } calls :=
  (sound_configure tuning).along hallowed

namespace ChargersAux

/-- A charger that is active for a second after every booster use. -/
def tuning : ChargerTuning := ⟨true, 1, 1000⟩

/-- A kart uses a booster, gets a visual and a profile, uses another one and is past its deadline. -/
def race : List (Call Nat Nat) :=
  [.observePhysicsTick (some 1) 5 none false, .observeDriveEvent (some 1) 3 1 0 1, .observePhysicsTick (some 1) 6 (some 7) true,
    .applyServerProfile tuning 1 1, .observePhysicsTick (some 1) 7 none true, .observeDriveEvent (some 1) 4 1 1 2,
    .observePhysicsTick (some 1) 1008 none true]

/-- A second kart gets a visual, a profile frees the slot of the first, and the second is called for. -/
def hole : List (Call Nat Nat) :=
  [.observePhysicsTick (some 1) 5 none false, .observePhysicsTick (some 2) 5 none false, .observeDriveEvent (some 2) 3 1 0 1,
    .observePhysicsTick (some 2) 6 (some 7) true, .applyServerProfile tuning 1 1, .observePhysicsTick (some 2) 7 none true]

/-- A kart uses a booster at the last tick there is, and is ticked at it again. -/
def wrap : List (Call Nat Nat) :=
  [.observePhysicsTick (some 1) 4294967295 none false, .observeDriveEvent (some 1) 3 1 0 1,
    .observePhysicsTick (some 1) 4294967295 none false]

/-- There is room for a kart that is in no slot but the first, as long as the second is free. -/
theorem hasRoom {g : PhysicsRuntime Nat Nat} (hkey : ∀ j, g.key j = some 1 → j = 0) (hfree : g.key 1 = none) : g.HasRoom 1 where
  visible := by
    rintro ⟨i, j, hlt, -, hj⟩
    rw [hkey j hj] at hlt
    exact absurd hlt (Nat.not_lt_zero i)
  spares hfull := absurd hfree (hfull 1).1

/-- Its first use under a profile can be counted, when its last tick leaves time for a deadline. -/
theorem countable {g : PhysicsRuntime Nat Nat} {law : ChargerLaw Nat} {t : Nat} {after : UInt32} (htuning : law.tuning = tuning)
    (hcharger : law.charger = none) (hticks : law.ticks 1 = some t) (hkey : g.key 0 = some 1) (hage : g.age 0 = t)
    (ht : t + 1000 ≤ 2 ^ 32) : g.Countable law 1 after where
  remembers _ _ t' ht' := by
    rw [hticks] at ht'
    cases ht'
    exact ⟨0, hkey, hage⟩
  uses c hc _ _ := by
    rw [ChargerLaw.observed_of_none hcharger, htuning] at hc
    cases hc
    exact Nat.lt_of_lt_of_le Nat.one_lt_two (by decide)
  deadline c _ _ _ := by
    rw [htuning]
    exact ⟨t, hticks, Nat.lt_of_lt_of_le (by decide) (Nat.le_add_left _ t), ht⟩

end ChargersAux

/-- So is a race with a profile in between. -/
theorem charger_tracking_race :
    Along Lawful (configure ChargersAux.tuning) { tuning := ChargersAux.tuning } ChargersAux.race := by
  refine charger_tracking ChargersAux.tuning ChargersAux.race ⟨?_, ⟨?_, fun _ => ?_⟩, ?_, trivial, ?_, ⟨?_, fun _ => ?_⟩, ?_, trivial⟩
  · exact ChargersAux.hasRoom (by decide +kernel) (by decide +kernel)
  · exact ChargersAux.hasRoom (by decide +kernel) (by decide +kernel)
  · exact ChargersAux.countable (t := 5) rfl rfl rfl (by decide +kernel) (by decide +kernel) (by decide)
  · exact ChargersAux.hasRoom (by decide +kernel) (by decide +kernel)
  · exact ChargersAux.hasRoom (by decide +kernel) (by decide +kernel)
  · exact ChargersAux.hasRoom (by decide +kernel) (by decide +kernel)
  · exact ChargersAux.countable (t := 7) rfl rfl rfl (by decide +kernel) (by decide +kernel) (by decide)
  · exact ChargersAux.hasRoom (by decide +kernel) (by decide +kernel)

/-- A run may lose the entry of a visual behind a free slot, and a deadline may fall on the other side of zero. -/
theorem charger_tracking_false :
    ¬Along Lawful (configure ChargersAux.tuning) { tuning := ChargersAux.tuning } ChargersAux.hole ∧
      ¬Along Lawful (configure ChargersAux.tuning) { tuning := ChargersAux.tuning } ChargersAux.wrap := by
  refine ⟨fun h => ?_, fun h => ?_⟩
  · have hlast := h.2.2.2.2.2.1.distinct
    exact absurd (hlast 0 1 2 (by decide +kernel) (by decide +kernel)) (by decide)
  · obtain ⟨slot, hkey, hactive⟩ := h.2.2.1.charger _ rfl
    have honly : ∀ j, ((configure ChargersAux.tuning : PhysicsRuntime Nat Nat).run ChargersAux.wrap).key j = some 1 → j = 0 := by
      decide +kernel
    have hinactive : ((configure ChargersAux.tuning : PhysicsRuntime Nat Nat).run ChargersAux.wrap).active 0 = false := by
      decide +kernel
    obtain rfl := honly slot hkey
    exact absurd (hinactive.symm.trans hactive) (by decide)

end PhysicsRuntime

end P5136.Xun
