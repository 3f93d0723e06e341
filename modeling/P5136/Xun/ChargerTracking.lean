import P5136.Xun.ChargerRuns
import P5136.Xun.KartTable

/-!
# Chargers in the table

The table runs the charger of the local kart by its law: every entry fits what the law knows of its kart. Each part of a call
changes one slot and keeps this.
-/

namespace P5136.Xun

open Option

variable {κ ν : Type}

/-- An entry fits the last tick of its kart, and its charger when it is the local one's. -/
structure TrackedKart.Fits (entry : TrackedKart κ ν) (tuning : ChargerTuning) (lastTick : Option Nat)
    (charger : Option (LocalCharger κ)) : Prop where
  unticked : lastTick = none → entry.lastTickMs = 0
  idle : charger = none → entry.charger = {}
  ticked : ∀ c, charger = some c → entry.lastTickMs.toNat = lastTick.getD 0
  client : ∀ c, charger = some c →
    c.client = if entry.sawClientBoosterCounter = true then some entry.lastClientBoosterUses else none
  agrees : ∀ c, charger = some c → entry.charger.Agrees tuning c

/-- The entry of a kart without a charger. -/
theorem TrackedKart.Fits.of_idle {entry : TrackedKart κ ν} {tuning : ChargerTuning} {lastTick : Option Nat}
    (hunticked : lastTick = none → entry.lastTickMs = 0) (hidle : entry.charger = {}) : entry.Fits tuning lastTick none where
  unticked := hunticked
  idle _ := hidle
  ticked c h := by cases h
  client c h := by cases h
  agrees c h := by cases h

/-- The entry of a kart with one. -/
theorem TrackedKart.Fits.of_charger {entry : TrackedKart κ ν} {tuning : ChargerTuning} {lastTick : Option Nat} {c : LocalCharger κ}
    (hticked : entry.lastTickMs.toNat = lastTick.getD 0)
    (hclient : c.client = if entry.sawClientBoosterCounter = true then some entry.lastClientBoosterUses else none)
    (hagrees : entry.charger.Agrees tuning c) : entry.Fits tuning lastTick (some c) where
  unticked h := by
    rw [h] at hticked
    exact UInt32.toNat_inj.1 hticked
  idle h := by cases h
  ticked c' h := hticked
  client c' h := by
    cases h
    exact hclient
  agrees c' h := by
    cases h
    exact hagrees

variable [DecidableEq κ]

/-- The charger of a kart, when it is the local one. -/
def ChargerLaw.chargerOf (law : ChargerLaw κ) (kart : κ) : Option (LocalCharger κ) :=
  law.charger.filter fun c => c.kart = kart

namespace ChargerLaw

variable {law law' : ChargerLaw κ} {kart : κ}

/-- The local kart has a charger. -/
theorem chargerOf_eq_some {c : LocalCharger κ} : law.chargerOf kart = some c ↔ law.charger = some c ∧ c.kart = kart := by
  unfold chargerOf
  rw [filter_eq_some_iff, decide_eq_true_iff]

/-- Another one has none. -/
theorem chargerOf_eq_none : law.chargerOf kart = none ↔ ∀ c, law.charger = some c → c.kart ≠ kart := by
  unfold chargerOf
  rw [filter_eq_none_iff]
  simp only [decide_eq_true_iff]

/-- A change that keeps the karts changes the charger of each. -/
theorem chargerOf_map {f : LocalCharger κ → LocalCharger κ} (hkart : ∀ c, (f c).kart = c.kart)
    (h : law'.charger = law.charger.map f) (kart : κ) : law'.chargerOf kart = (law.chargerOf kart).map f := by
  unfold chargerOf
  rw [h]
  cases law.charger with
  | none => rfl
  | some c =>
    rw [map_some, filter_some, filter_some, hkart]
    split
    · rfl
    · rfl

/-- A change at one kart leaves the charger of another. -/
theorem chargerOf_map_of_ne {f : LocalCharger κ → LocalCharger κ} (hkart : ∀ c, (f c).kart = c.kart)
    (hother : ∀ c, c.kart ≠ kart → f c = c) (h : law'.charger = law.charger.map f) {other : κ} (hne : other ≠ kart) :
    law'.chargerOf other = law.chargerOf other := by
  rw [chargerOf_map hkart h other]
  cases hcharger : law.chargerOf other with
  | none => rfl
  | some c =>
    obtain ⟨-, rfl⟩ := chargerOf_eq_some.1 hcharger
    exact congrArg some (hother c hne)

end ChargerLaw

namespace PhysicsRuntime

/-- The runtime follows the law. -/
structure Follows (g : PhysicsRuntime κ ν) (law : ChargerLaw κ) : Prop where
  tuning : g.tuning = law.tuning
  generation : g.profileGeneration = law.generation
  kartId : g.profileKartId = law.kartId
  localKart : g.localKart = law.charger.map LocalCharger.kart
  fits : ∀ slot kart, g.key slot = some kart → (g.karts slot).Fits g.tuning (law.ticks kart) (law.chargerOf kart)
  free : ∀ slot, g.key slot = none → (g.karts slot).charger = {}
  enabled : ∀ c, law.charger = some c → g.tuning.enabled = true
  tracked : ∀ c, law.charger = some c → ∃ slot, g.key slot = some c.kart

variable {g g' : PhysicsRuntime κ ν} {law law' : ChargerLaw κ} {kart : κ} {slot : Fin 32} {entry : TrackedKart κ ν}

/-- Putting an entry of a kart into a slot, while the law changes at that kart only. -/
theorem Follows.update (h : g.Follows law) (hkarts : g'.karts = Function.update g.karts slot entry)
    (htuning : g'.tuning = g.tuning) (hgeneration : g'.profileGeneration = g.profileGeneration)
    (hkartId : g'.profileKartId = g.profileKartId) (hkey : entry.key = some kart) (hothers : ∀ j, j ≠ slot → g.key j ≠ some kart)
    (hspared : ∀ l, g.localKart = some l → l ≠ kart → g.key slot ≠ some l)
    (hlaw : law'.tuning = law.tuning ∧ law'.generation = law.generation ∧ law'.kartId = law.kartId)
    (hticks : ∀ k, k ≠ kart → law'.ticks k = law.ticks k) (hchargers : ∀ k, k ≠ kart → law'.chargerOf k = law.chargerOf k)
    (hlocal : g'.localKart = law'.charger.map LocalCharger.kart)
    (henabled : ∀ c, law'.chargerOf kart = some c → g.tuning.enabled = true)
    (hfits : entry.Fits g.tuning (law'.ticks kart) (law'.chargerOf kart)) : g'.Follows law' := by
  have hkeys := key_of_update hkarts
  have hself : g'.karts slot = entry := by rw [hkarts, Function.update_self]
  have hother : ∀ j, j ≠ slot → g'.karts j = g.karts j := fun j hj => by rw [hkarts, Function.update_of_ne hj]
  -- the charger of another kart is the one it had
  have hbefore : ∀ c, law'.charger = some c → c.kart ≠ kart → law.charger = some c := by
    intro c hc hne
    have hof : law'.chargerOf c.kart = some c := ChargerLaw.chargerOf_eq_some.2 ⟨hc, rfl⟩
    rw [hchargers c.kart hne] at hof
    exact (ChargerLaw.chargerOf_eq_some.1 hof).1
  refine ⟨htuning.trans (h.tuning.trans hlaw.1.symm), hgeneration.trans (h.generation.trans hlaw.2.1.symm),
    hkartId.trans (h.kartId.trans hlaw.2.2.symm), hlocal, fun j k hj => ?_, fun j hj => ?_, fun c hc => ?_, fun c hc => ?_⟩
  · rw [htuning]
    by_cases hjs : j = slot
    · subst hjs
      rw [hkeys, Function.update_self, hkey] at hj
      cases hj
      rw [hself]
      exact hfits
    · have hold : g.key j = some k := by
        rw [hkeys, Function.update_of_ne hjs] at hj
        exact hj
      have hne : k ≠ kart := fun heq => hothers j hjs (heq ▸ hold)
      rw [hother j hjs, hticks k hne, hchargers k hne]
      exact h.fits j k hold
  · by_cases hjs : j = slot
    · subst hjs
      rw [hkeys, Function.update_self, hkey] at hj
      cases hj
    · rw [hkeys, Function.update_of_ne hjs] at hj
      rw [hother j hjs]
      exact h.free j hj
  · rw [htuning]
    by_cases hne : c.kart = kart
    · exact henabled c (ChargerLaw.chargerOf_eq_some.2 ⟨hc, hne⟩)
    · exact h.enabled c (hbefore c hc hne)
  · by_cases hne : c.kart = kart
    · refine ⟨slot, ?_⟩
      rw [hkeys, Function.update_self, hkey, hne]
    · have hold := hbefore c hc hne
      obtain ⟨j, hj⟩ := h.tracked c hold
      refine ⟨j, ?_⟩
      have hjs : j ≠ slot := by
        rintro rfl
        refine hspared c.kart ?_ hne hj
        rw [h.localKart, hold]
        rfl
      rw [hkeys, Function.update_of_ne hjs]
      exact hj

/-- The charger of the local kart. -/
theorem Follows.chargerOf_isSome (h : g.Follows law) : g.localKart = some kart ↔ ∃ c, law.chargerOf kart = some c := by
  rw [h.localKart, map_eq_some_iff]
  constructor
  · rintro ⟨c, hc, hkart⟩
    exact ⟨c, ChargerLaw.chargerOf_eq_some.2 ⟨hc, hkart⟩⟩
  · rintro ⟨c, hc⟩
    exact ⟨c, ChargerLaw.chargerOf_eq_some.1 hc⟩

/-- A kart that is not tracked has none. -/
theorem Follows.untracked (h : g.Follows law) (huntracked : ∀ j, g.key j ≠ some kart) : law.chargerOf kart = none := by
  refine ChargerLaw.chargerOf_eq_none.2 fun c hc heq => ?_
  obtain ⟨j, hj⟩ := h.tracked c hc
  exact huntracked j (heq ▸ hj)

/-! ## Events -/

/-- A slot that was searched for. -/
theorem Follows.allocate (h : g.Follows law) (hdistinct : SlotTable.Distinct g.key) {now : UInt32}
    (ha : Allocates g kart now false slot entry) (hkarts : g'.karts = Function.update g.karts slot entry) (hprofile : g.SameProfile g') :
    g'.Follows law := by
  refine h.update hkarts hprofile.tuning hprofile.profileGeneration hprofile.profileKartId ha.key_eq (ha.others hdistinct)
    (fun l hlocal hne => ha.spared hlocal hne) ⟨rfl, rfl, rfl⟩ (fun _ _ => rfl) (fun _ _ => rfl)
    (hprofile.localKart.trans h.localKart) (fun c hc => h.enabled c (ChargerLaw.chargerOf_eq_some.1 hc).1) ?_
  cases ha with
  | kept hkey _ => exact h.fits slot kart hkey
  | rewound _ hreset _ => cases hreset
  | fresh huntracked _ =>
    rw [h.untracked huntracked]
    exact .of_idle (fun _ => rfl) rfl

/-- The entry in which the client counter was noted. -/
theorem karts_noteClientCounter (g : PhysicsRuntime κ ν) (slot : Fin 32) (kart : κ) (after : UInt32) :
    (g.noteClientCounter slot kart after).karts = Function.update g.karts slot
      { g.karts slot with
          sawDriveEvent := true
          sawClientBoosterCounter := true
          lastClientBoosterUses := after
          charger := if g.raceReset slot kart after = true then {} else (g.karts slot).charger } := by
  unfold noteClientCounter
  dsimp only
  by_cases hreset : g.raceReset slot kart after = true
  · rw [if_pos hreset, if_pos hreset]
    split
    · exact congrArg (fun karts => Function.update karts slot _) g.karts_withoutActive
    · rfl
  · rw [if_neg hreset, if_neg hreset]
    rfl

/-- Noting it does not change the profile. -/
theorem sameProfile_noteClientCounter (g : PhysicsRuntime κ ν) (slot : Fin 32) (kart : κ) (after : UInt32) :
    g.SameProfile (g.noteClientCounter slot kart after) := by
  unfold noteClientCounter
  dsimp only
  split
  · split
    · exact g.sameProfile_withoutActive.trans (sameProfile_set _ _ _)
    · exact sameProfile_set _ _ _
  · exact sameProfile_set _ _ _

/-- Noting it keeps the count. -/
theorem Counted.noteClientCounter (h : g.Counted) (slot : Fin 32) (kart : κ) (after : UInt32) :
    (g.noteClientCounter slot kart after).Counted := by
  unfold PhysicsRuntime.noteClientCounter
  dsimp only
  split
  · split
    · rename_i hactive
      exact h.withoutActive hactive rfl
    · rename_i hinactive
      exact h.set (Bool.eq_false_iff.2 hinactive).symm
  · exact h.set rfl

omit [DecidableEq κ] in
/-- Binding the local kart leaves the rest. -/
theorem bindLocalKart_rest (g : PhysicsRuntime κ ν) (kart : κ) (counted : Bool) :
    (g.bindLocalKart kart counted).karts = g.karts ∧ (g.bindLocalKart kart counted).probe = g.probe ∧
      (g.bindLocalKart kart counted).tuning = g.tuning ∧
      (g.bindLocalKart kart counted).profileGeneration = g.profileGeneration ∧
      (g.bindLocalKart kart counted).profileKartId = g.profileKartId := by
  unfold bindLocalKart
  split
  · exact ⟨rfl, rfl, rfl, rfl, rfl⟩
  · exact ⟨rfl, rfl, rfl, rfl, rfl⟩

/-- Both change the one slot. -/
theorem at_observe (g : PhysicsRuntime κ ν) (slot : Fin 32) (kart : κ) (after : UInt32) (counted : Bool) :
    At slot g ((g.noteClientCounter slot kart after).bindLocalKart kart counted) :=
  .of_update ((bindLocalKart_rest _ kart counted).1.trans (g.karts_noteClientCounter slot kart after)) rfl rfl

/-- The race boundary is a client counter that went back. -/
theorem Follows.raceReset_iff (h : g.Follows law) (hkey : g.key slot = some kart) {c : LocalCharger κ}
    (hc : law.chargerOf kart = some c) (after : UInt32) : g.raceReset slot kart after = true ↔ c.Rewound after := by
  have hclient := (h.fits slot kart hkey).client c hc
  have henabled := h.enabled c (ChargerLaw.chargerOf_eq_some.1 hc).1
  have hlocal : g.localKart = some kart := h.chargerOf_isSome.2 ⟨c, hc⟩
  unfold raceReset clientBoosterCounterRewound LocalCharger.Rewound
  rw [hclient, henabled, decide_eq_true hlocal, Bool.and_self, Bool.true_and, Bool.and_eq_true, decide_eq_true_iff]
  constructor
  · rintro ⟨hsaw, hlt⟩
    exact ⟨_, if_pos hsaw, hlt⟩
  · rintro ⟨seen, hseen, hlt⟩
    split at hseen
    · rename_i hsaw
      cases hseen
      exact ⟨hsaw, hlt⟩
    · cases hseen

/-- The client counter of an event. -/
theorem Follows.observe (h : g.Follows law) (hdistinct : SlotTable.Distinct g.key) (hkey : g.key slot = some kart) (after : UInt32)
    {counted : Bool} (hremembers : law.charger = none → counted = true → law.tuning.enabled = true →
      ∀ t, law.ticks kart = some t → g.age slot = t) :
    ((g.noteClientCounter slot kart after).bindLocalKart kart counted).Follows
      { law with charger := law.observed kart after counted } := by
  have hprofile := g.sameProfile_noteClientCounter slot kart after
  obtain ⟨hkarts, -, htuning, hgeneration, hkartId⟩ := bindLocalKart_rest (g.noteClientCounter slot kart after) kart counted
  have hfits := h.fits slot kart hkey
  refine h.update (hkarts.trans (g.karts_noteClientCounter slot kart after)) (htuning.trans hprofile.tuning)
    (hgeneration.trans hprofile.profileGeneration) (hkartId.trans hprofile.profileKartId) hkey
    (fun j hj hkart => hj (hdistinct j slot kart hkart hkey))
    (fun l _ hne hl => hne (some.inj (hl.symm.trans hkey))) ⟨rfl, rfl, rfl⟩ (fun _ _ => rfl) (fun k hk => ?_) ?_
    (fun c hc => ?_) ?_
  · -- only the charger of this kart changes
    cases hcharger : law.charger with
    | some c =>
      refine ChargerLaw.chargerOf_map_of_ne (f := fun c => if c.kart = kart then c.observe after else c)
        (fun c => ?_) (fun c hne => if_neg hne) ?_ hk
      · split
        · exact c.kart_observe after
        · rfl
      · rw [hcharger]
        exact ChargerLaw.observed_of_some hcharger kart after counted
    | none =>
      have hbefore : law.chargerOf k = none := ChargerLaw.chargerOf_eq_none.2 fun c hc => by rw [hcharger] at hc; cases hc
      rw [hbefore, ChargerLaw.chargerOf_eq_none]
      intro c hc
      change law.observed kart after counted = some c at hc
      rw [ChargerLaw.observed_of_none hcharger] at hc
      split at hc
      · cases hc
        exact hk.symm
      · cases hc
  · -- the local kart is bound
    change ((g.noteClientCounter slot kart after).bindLocalKart kart counted).localKart = (law.observed kart after counted).map _
    have hlocal : (g.noteClientCounter slot kart after).localKart = law.charger.map LocalCharger.kart :=
      hprofile.localKart.trans h.localKart
    have htuning : (g.noteClientCounter slot kart after).tuning = law.tuning := hprofile.tuning.trans h.tuning
    unfold bindLocalKart
    cases hcharger : law.charger with
    | some c =>
      rw [hcharger] at hlocal
      rw [if_neg (fun hand => by rw [hlocal] at hand; cases hand.2.2), hlocal, ChargerLaw.observed_of_some hcharger]
      refine congrArg some ?_
      split
      · exact (c.kart_observe after).symm
      · rfl
    | none =>
      rw [hcharger] at hlocal
      rw [ChargerLaw.observed_of_none hcharger, htuning]
      by_cases hbind : counted = true ∧ law.tuning.enabled = true
      · rw [if_pos ⟨hbind.1, hbind.2, hlocal⟩, if_pos hbind]
        rfl
      · rw [if_neg (fun hand => hbind ⟨hand.1, hand.2.1⟩), if_neg hbind]
        exact hlocal
  · obtain ⟨hc, -⟩ := ChargerLaw.chargerOf_eq_some.1 hc
    change law.observed kart after counted = some c at hc
    cases hcharger : law.charger with
    | some c => exact h.enabled c hcharger
    | none =>
      rw [ChargerLaw.observed_of_none hcharger] at hc
      split at hc
      · rename_i hbind
        rw [h.tuning]
        exact hbind.2
      · cases hc
  · -- a reset charger is as good as one that never ran
    have hidle : law.chargerOf kart = none →
        (if g.raceReset slot kart after = true then {} else (g.karts slot).charger) = ({} : ChargerState) := by
      intro hnone
      rw [hfits.idle hnone]
      split
      · rfl
      · rfl
    cases hcharger : law.charger with
    | some c =>
      have hobserved := ChargerLaw.observed_of_some hcharger kart after counted
      by_cases hc : c.kart = kart
      · have hof : law.chargerOf kart = some c := ChargerLaw.chargerOf_eq_some.2 ⟨hcharger, hc⟩
        have hnext : ({ law with charger := law.observed kart after counted } : ChargerLaw κ).chargerOf kart =
            some (c.observe after) := by
          refine ChargerLaw.chargerOf_eq_some.2 ⟨?_, (c.kart_observe after).trans hc⟩
          rw [if_pos hc] at hobserved
          exact hobserved
        rw [hnext]
        unfold LocalCharger.observe
        by_cases hrewound : c.Rewound after
        · rw [if_pos hrewound, if_pos ((h.raceReset_iff hkey hof after).2 hrewound)]
          exact .of_charger (hfits.ticked c hof) rfl (.reset _ _ _)
        · rw [if_neg hrewound, if_neg (fun hreset => hrewound ((h.raceReset_iff hkey hof after).1 hreset))]
          exact .of_charger (hfits.ticked c hof) rfl ((hfits.agrees c hof).withClient _)
      · have hof : law.chargerOf kart = none := ChargerLaw.chargerOf_eq_none.2 fun c' hc' => by
          rw [hcharger] at hc'
          cases hc'
          exact hc
        have hnext : ({ law with charger := law.observed kart after counted } : ChargerLaw κ).chargerOf kart = none := by
          refine ChargerLaw.chargerOf_eq_none.2 fun c' hc' => ?_
          change law.observed kart after counted = some c' at hc'
          rw [hobserved, if_neg hc] at hc'
          cases hc'
          exact hc
        rw [hnext]
        exact .of_idle hfits.unticked (hidle hof)
    | none =>
      have hof : law.chargerOf kart = none := ChargerLaw.chargerOf_eq_none.2 fun c hc => by rw [hcharger] at hc; cases hc
      have hobserved := ChargerLaw.observed_of_none hcharger kart after counted
      by_cases hbind : counted = true ∧ law.tuning.enabled = true
      · have hnext : ({ law with charger := law.observed kart after counted } : ChargerLaw κ).chargerOf kart =
            some { kart := kart, client := some after } := by
          refine ChargerLaw.chargerOf_eq_some.2 ⟨?_, rfl⟩
          rw [if_pos hbind] at hobserved
          exact hobserved
        rw [hnext]
        refine .of_charger ?_ rfl ?_
        · change (g.karts slot).lastTickMs.toNat = (law.ticks kart).getD 0
          cases hticks : law.ticks kart with
          | none => exact congrArg UInt32.toNat (hfits.unticked hticks)
          | some t => exact hremembers hcharger hbind.1 hbind.2 t hticks
        · change ChargerState.Agrees (if g.raceReset slot kart after = true then {} else (g.karts slot).charger) _ _
          rw [hidle hof]
          exact .reset _ _ _
      · have hnext : ({ law with charger := law.observed kart after counted } : ChargerLaw κ).chargerOf kart = none := by
          refine ChargerLaw.chargerOf_eq_none.2 fun c hc => ?_
          change law.observed kart after counted = some c at hc
          rw [hobserved, if_neg hbind] at hc
          cases hc
        rw [hnext]
        exact .of_idle hfits.unticked (hidle hof)

/-- A change of the charger of one kart. -/
theorem Follows.transit (h : g.Follows law) (hdistinct : SlotTable.Distinct g.key) (hkey : g.key slot = some kart)
    {f : LocalCharger κ → LocalCharger κ} (hkart : ∀ c, (f c).kart = c.kart) (hother : ∀ c, c.kart ≠ kart → f c = c)
    (hclient : ∀ c, (f c).client = c.client) {next : ChargerState × ChargerTransition}
    (hidle : law.chargerOf kart = none → next.1 = {})
    (hagrees : ∀ c, law.chargerOf kart = some c → next.1.Agrees g.tuning (f c)) :
    (g.transit slot next).Follows { law with charger := law.charger.map f } := by
  have hprofile := g.sameProfile_transit slot next
  have hfits := h.fits slot kart hkey
  have hmap : ∀ k, ({ law with charger := law.charger.map f } : ChargerLaw κ).chargerOf k = (law.chargerOf k).map f :=
    ChargerLaw.chargerOf_map hkart rfl
  refine h.update (karts_recordTransition _ _) hprofile.tuning hprofile.profileGeneration
    hprofile.profileKartId hkey (fun j hj hk => hj (hdistinct j slot kart hk hkey))
    (fun l _ hne hl => hne (some.inj (hl.symm.trans hkey))) ⟨rfl, rfl, rfl⟩ (fun _ _ => rfl)
    (fun k hk => ChargerLaw.chargerOf_map_of_ne hkart hother rfl hk) ?_ (fun c hc => ?_) ?_
  · rw [hprofile.localKart, h.localKart, map_map]
    exact congrArg (fun kartOf => law.charger.map kartOf) (funext fun c => (hkart c).symm)
  · rw [hmap] at hc
    obtain ⟨c', hc', -⟩ := map_eq_some_iff.1 hc
    exact h.enabled c' (ChargerLaw.chargerOf_eq_some.1 hc').1
  · rw [hmap]
    cases hcharger : law.chargerOf kart with
    | none => exact .of_idle hfits.unticked (hidle hcharger)
    | some c => exact .of_charger (hfits.ticked c hcharger) ((hclient c).trans (hfits.client c hcharger)) (hagrees c hcharger)

/-- A counted use is one of a booster. -/
theorem boosterKind_of_counted {eventKind before after : UInt32} {accepted : Bool}
    (h : shouldCountBoosterEvent eventKind accepted before after = true) : eventKind.toUInt8 = 3 ∨ eventKind.toUInt8 = 4 := by
  unfold shouldCountBoosterEvent at h
  simp only [Bool.and_eq_true, Bool.or_eq_true, beq_iff_eq] at h
  obtain ⟨⟨-, rfl | rfl⟩, -⟩ := h
  · exact .inl rfl
  · exact .inr rfl

/-- What an event does to the charger of its kart. -/
theorem Follows.use (h : g.Follows law) (hdistinct : SlotTable.Distinct g.key) (hkey : g.key slot = some kart)
    (hlocal : g.localKart = some kart) {eventKind : UInt8} {counted : Bool} (hkind : counted = true → eventKind = 3 ∨ eventKind = 4)
    (hfits : counted = true → ∀ c, law.chargerOf kart = some c → law.tuning.boosterUseCount.toNat ≠ 0 → c.uses + 1 < 2 ^ 32)
    (hdue : counted = true → ∀ c, law.chargerOf kart = some c → c.Due law.tuning → ∃ t, law.ticks kart = some t ∧
      0 < t + law.tuning.useTimeMs.toNat ∧ t + law.tuning.useTimeMs.toNat ≤ 2 ^ 32) :
    (g.transit slot ((g.karts slot).charger.observeDriveEvent g.tuning (g.lastTick slot) eventKind (!counted))).Follows
      { law with charger := law.charger.map fun c =>
          if c.kart = kart ∧ counted = true then c.use law.tuning ((law.ticks kart).getD 0) else c } := by
  have hentry := h.fits slot kart hkey
  refine h.transit hdistinct hkey (fun c => ?_) (fun c hc => if_neg fun hand => hc hand.1) (fun c => ?_) (fun hnone => ?_)
    (fun c hc => ?_)
  · split
    · rfl
    · rfl
  · split
    · rfl
    · rfl
  · obtain ⟨c, hc⟩ := h.chargerOf_isSome.1 hlocal
    rw [hnone] at hc
    cases hc
  · have hagrees := hentry.agrees c hc
    have hticked := hentry.ticked c hc
    obtain ⟨hcharger, hkart⟩ := ChargerLaw.chargerOf_eq_some.1 hc
    cases counted with
    | false =>
      rw [if_neg (fun hand => by cases hand.2)]
      change ((g.karts slot).charger.observeDriveEvent g.tuning (g.lastTick slot) eventKind true).1.Agrees _ _
      rw [hagrees.observeDriveEvent_excluded]
      exact hagrees
    | true =>
      rw [if_pos ⟨hkart, rfl⟩, ← h.tuning, ← hticked]
      rw [← h.tuning] at hfits hdue
      refine hagrees.use (h.enabled c hcharger) (hkind rfl) (hfits rfl c hc) fun hd => ?_
      obtain ⟨t, ht, hpos, hle⟩ := hdue rfl c hc hd
      rw [ht] at hticked
      change (g.karts slot).lastTickMs.toNat = t at hticked
      change 0 < (g.karts slot).lastTickMs.toNat + _ ∧ (g.karts slot).lastTickMs.toNat + _ ≤ _
      rw [hticked]
      exact ⟨hpos, hle⟩

/-! ## Ticks -/

/-- A tick that is noted: the slot has its time. -/
theorem Follows.noteTick (h : g.Follows law) (hdistinct : SlotTable.Distinct g.key) {now : UInt32}
    (ha : Allocates g kart now true slot entry) (hkarts : g'.karts = Function.update g.karts slot entry) (hprofile : g.SameProfile g') :
    (g'.noteTick slot now).Follows (law.noteTick kart now.toNat) := by
  have hself : g'.karts slot = entry := by rw [hkarts, Function.update_self]
  have hnoted : (g'.noteTick slot now).karts =
      Function.update g.karts slot { entry with lastTickMs := now, tickCalls := entry.tickCalls + 1 } := by
    change Function.update g'.karts slot _ = _
    rw [hself, hkarts, Function.update_idem]
  have hmap : ∀ k, (law.noteTick kart now.toNat).chargerOf k = (law.chargerOf k).map (law.rewind kart now.toNat) :=
    ChargerLaw.chargerOf_map (law.kart_rewind kart now.toNat) rfl
  refine h.update hnoted hprofile.tuning hprofile.profileGeneration hprofile.profileKartId ha.key_eq (ha.others hdistinct)
    (fun l hlocal hne => ha.spared hlocal hne) ⟨rfl, rfl, rfl⟩ (fun k hk => Function.update_of_ne hk _ _)
    (fun k hk => ChargerLaw.chargerOf_map_of_ne (law.kart_rewind kart now.toNat) (fun c hc => if_neg fun hand => hc hand.1) rfl hk)
    ?_ (fun c hc => ?_) ?_
  · change g'.localKart = (law.charger.map _).map _
    rw [hprofile.localKart, h.localKart, map_map]
    exact congrArg (fun kartOf => law.charger.map kartOf) (funext fun c => (law.kart_rewind kart now.toNat c).symm)
  · rw [hmap] at hc
    obtain ⟨c', hc', -⟩ := map_eq_some_iff.1 hc
    exact h.enabled c' (ChargerLaw.chargerOf_eq_some.1 hc').1
  · have hticks : (law.noteTick kart now.toNat).ticks kart = some now.toNat := Function.update_self _ _ _
    rw [hmap, hticks]
    cases hcharger : law.chargerOf kart with
    | none =>
      refine .of_idle (fun hnone => by cases hnone) ?_
      cases ha with
      | kept hkey _ => exact (h.fits slot kart hkey).idle hcharger
      | rewound _ _ _ => rfl
      | fresh _ _ => rfl
    | some c =>
      have hkart := (ChargerLaw.chargerOf_eq_some.1 hcharger).2
      cases ha with
      | kept hkey htime =>
        -- the tick is no earlier than the one the entry remembers
        have hfits := h.fits slot kart hkey
        have hlate : ¬now.toNat < (law.ticks kart).getD 0 := by
          rw [← hfits.ticked c hcharger]
          exact fun hlt => htime ⟨rfl, UInt32.lt_iff_toNat_lt.2 hlt⟩
        have hsame : law.rewind kart now.toNat c = c := if_neg fun hand => hlate hand.2
        rw [map_some, hsame]
        exact .of_charger rfl (hfits.client c hcharger) (hfits.agrees c hcharger)
      | rewound hkey _ htime =>
        have hfits := h.fits slot kart hkey
        have hearly : now.toNat < (law.ticks kart).getD 0 := by
          rw [← hfits.ticked c hcharger]
          exact UInt32.lt_iff_toNat_lt.1 htime
        have hreset : law.rewind kart now.toNat c = { kart := kart } := if_pos ⟨hkart, hearly⟩
        rw [map_some, hreset]
        exact .of_charger rfl rfl (.reset _ _ _)
      | fresh huntracked _ =>
        rw [h.untracked huntracked] at hcharger
        cases hcharger

/-- What a tick does to the charger of its kart. -/
theorem Follows.tick (h : g.Follows law) (hdistinct : SlotTable.Distinct g.key) (hkey : g.key slot = some kart) (now : UInt32) :
    (g.transit slot ((g.karts slot).charger.tick g.tuning now)).Follows
      { law with charger := law.charger.map fun c => if c.kart = kart then c.tick law.tuning now.toNat else c } := by
  have hentry := h.fits slot kart hkey
  refine h.transit hdistinct hkey (fun c => ?_) (fun c hc => if_neg hc) (fun c => ?_) (fun hnone => ?_) (fun c hc => ?_)
  · split
    · rfl
    · rfl
  · split
    · rfl
    · rfl
  · rw [hentry.idle hnone]
    unfold ChargerState.tick
    rw [if_pos (.inr rfl)]
  · obtain ⟨hcharger, hkart⟩ := ChargerLaw.chargerOf_eq_some.1 hc
    rw [if_pos hkart, ← h.tuning]
    exact (hentry.agrees c hc).tick (h.enabled c hcharger) now

/-- A change of the charger of a kart that is not the local one changes nothing. -/
theorem Follows.map_eq_self (h : g.Follows law) (hlocal : g.localKart ≠ some kart) {f : LocalCharger κ → LocalCharger κ}
    (hother : ∀ c, c.kart ≠ kart → f c = c) : ({ law with charger := law.charger.map f } : ChargerLaw κ) = law := by
  have hmap : law.charger.map f = law.charger := by
    cases hcharger : law.charger with
    | none => rfl
    | some c =>
      refine congrArg some (hother c fun hkart => hlocal ?_)
      rw [h.localKart, hcharger, ← hkart]
      rfl
  rw [hmap]

end PhysicsRuntime

end P5136.Xun
