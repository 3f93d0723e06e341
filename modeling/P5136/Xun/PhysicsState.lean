import Mathlib.Algebra.Ring.Nat

/-!
# The state of a charger

A charger counts the booster uses of a kart. Enough of them made while it is inactive activate it, and it is active until its
deadline has passed.
-/

namespace P5136.Xun

/-- `ChargerTuning`, of which the charger reads these. -/
structure ChargerTuning where
  enabled : Bool := false
  boosterUseCount : UInt32 := 0
  useTimeMs : UInt32 := 0
deriving DecidableEq

structure ChargerState where
  active : Bool := false
  totalBoosterUses : UInt32 := 0
  activationCount : UInt32 := 0
  pendingBoosterUses : UInt32 := 0
  activeUntilMs : UInt32 := 0
deriving DecidableEq

inductive ChargerTransition where
  | none
  | activated
  | deactivated
deriving DecidableEq

def ChargerState.setActive (state : ChargerState) (tuning : ChargerTuning) (now : UInt32) (active : Bool) :
    ChargerState × ChargerTransition :=
  if tuning.enabled = false ∨ state.active = active then (state, .none)
  else if active = true ∧ state.pendingBoosterUses ≠ tuning.boosterUseCount then (state, .none)
  else if active = true then
    ({ state with
        active := active
        pendingBoosterUses := 0
        activationCount := state.activationCount + 1
        activeUntilMs := now + tuning.useTimeMs }, .activated)
  else ({ state with active := active, pendingBoosterUses := 0, activeUntilMs := 0 }, .deactivated)

def shouldCountBoosterEvent (eventKind : UInt32) (accepted : Bool) (before after : UInt32) : Bool :=
  accepted && (eventKind == 3 || eventKind == 4) && after == before + 1

def clientBoosterCounterRewound (previouslyObserved : Bool) (previous current : UInt32) : Bool :=
  previouslyObserved && decide (current < previous)

/-- The uses of a charger after an event. -/
def ChargerState.counted (state : ChargerState) (tuning : ChargerTuning) (eventKind : UInt8) (excluded : Bool) : ChargerState :=
  if excluded = false ∧ (eventKind = 3 ∨ eventKind = 4) then
    { state with
      totalBoosterUses := state.totalBoosterUses + 1
      pendingBoosterUses :=
        if tuning.enabled = true ∧ state.active = false then state.pendingBoosterUses + 1 else state.pendingBoosterUses }
  else state

def ChargerState.observeDriveEvent (state : ChargerState) (tuning : ChargerTuning) (now : UInt32) (eventKind : UInt8)
    (excluded : Bool) : ChargerState × ChargerTransition :=
  let state := state.counted tuning eventKind excluded
  if tuning.enabled = false ∨ tuning.boosterUseCount = 0 ∨ state.active = true then (state, .none)
  else if state.totalBoosterUses / tuning.boosterUseCount ≤ state.activationCount ∨ now < state.activeUntilMs then
    (state, .none)
  else state.setActive tuning now true

/-- `tick_charger`. -/
def ChargerState.tick (state : ChargerState) (tuning : ChargerTuning) (now : UInt32) : ChargerState × ChargerTransition :=
  if tuning.enabled = false ∨ state.active = false then (state, .none)
  else if state.activeUntilMs ≠ 0 ∧ state.activeUntilMs < now then state.setActive tuning now false
  else (state, .none)

/-! ## What an event and a tick do -/

/-- A transition tells how the charger changed. -/
def ChargerTransition.Tells (transition : ChargerTransition) (before after : Bool) : Prop :=
  match transition with
  | .none => after = before
  | .activated => before = false ∧ after = true
  | .deactivated => before = true ∧ after = false

/-- The transition of an activation, or of its end. -/
theorem ChargerState.tells_setActive (state : ChargerState) (tuning : ChargerTuning) (now : UInt32) (active : Bool) :
    (state.setActive tuning now active).2.Tells state.active (state.setActive tuning now active).1.active := by
  unfold setActive
  split
  · rfl
  · rename_i hchange
    obtain ⟨-, hne⟩ := not_or.1 hchange
    split
    · rfl
    · split
      · rename_i hactive
        subst hactive
        exact ⟨Bool.eq_false_iff.2 hne, rfl⟩
      · rename_i hinactive
        have hfalse : active = false := Bool.eq_false_iff.2 hinactive
        subst hfalse
        exact ⟨Bool.not_eq_false _ ▸ hne, rfl⟩

/-- Counting uses activates nothing. -/
@[simp] theorem ChargerState.active_counted (state : ChargerState) (tuning : ChargerTuning) (eventKind : UInt8)
    (excluded : Bool) : (state.counted tuning eventKind excluded).active = state.active := by
  unfold counted
  split
  · rfl
  · rfl

/-- The transition of an event. -/
theorem ChargerState.tells_observeDriveEvent (state : ChargerState) (tuning : ChargerTuning) (now : UInt32) (eventKind : UInt8)
    (excluded : Bool) : (state.observeDriveEvent tuning now eventKind excluded).2.Tells state.active
      (state.observeDriveEvent tuning now eventKind excluded).1.active := by
  have hcounted := state.active_counted tuning eventKind excluded
  unfold observeDriveEvent
  dsimp only
  split
  · exact hcounted
  · split
    · exact hcounted
    · have h := (state.counted tuning eventKind excluded).tells_setActive tuning now true
      rw [hcounted] at h
      exact h

/-- The transition of a tick. -/
theorem ChargerState.tells_tick (state : ChargerState) (tuning : ChargerTuning) (now : UInt32) :
    (state.tick tuning now).2.Tells state.active (state.tick tuning now).1.active := by
  unfold tick
  split
  · rfl
  · split
    · exact state.tells_setActive tuning now false
    · rfl

end P5136.Xun
