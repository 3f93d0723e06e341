import P5136.Xun.PhysicsRuntime

/-!
# The chargers of karts

What the charger of the local kart is to do under a profile: it becomes active at each so-manyth counted use made while it is
inactive, and inactive again at its first tick later than the last one before its activation by more than the time of use. A
tick earlier than the kart's last one, or a client counter that goes back, resets it.
-/

namespace P5136.Xun

/-- The charger of the local kart since it was reset. -/
structure LocalCharger (κ : Type) where
  kart : κ
  /-- The last client counter seen. -/
  client : Option UInt32 := none
  /-- The counted uses. -/
  uses : Nat := 0
  /-- Those made while the charger was inactive. -/
  inactiveUses : Nat := 0
  /-- The last tick before the activation, while the charger is active. -/
  since : Option Nat := none

namespace LocalCharger

variable {κ : Type}

/-- The next use activates the charger. -/
def Due (c : LocalCharger κ) (tuning : ChargerTuning) : Prop :=
  c.since = none ∧ tuning.boosterUseCount.toNat ≠ 0 ∧ tuning.boosterUseCount.toNat ∣ c.inactiveUses + 1

instance (c : LocalCharger κ) (tuning : ChargerTuning) : Decidable (c.Due tuning) := inferInstanceAs (Decidable (_ ∧ _ ∧ _))

/-- A counted use. -/
def use (c : LocalCharger κ) (tuning : ChargerTuning) (lastTick : Nat) : LocalCharger κ :=
  { c with
    uses := c.uses + 1
    inactiveUses := if c.since = none then c.inactiveUses + 1 else c.inactiveUses
    since := if c.Due tuning then some lastTick else c.since }

/-- A tick no earlier than the last one. -/
def tick (c : LocalCharger κ) (tuning : ChargerTuning) (now : Nat) : LocalCharger κ :=
  { c with since := c.since.filter fun since => now ≤ since + tuning.useTimeMs.toNat }

/-- The charger has seen a later client counter. -/
def Rewound (c : LocalCharger κ) (after : UInt32) : Prop := ∃ seen, c.client = some seen ∧ after < seen

instance (c : LocalCharger κ) (after : UInt32) : Decidable (c.Rewound after) :=
  match h : c.client with
  | none => isFalse fun ⟨_, hseen, _⟩ => by rw [h] at hseen; cases hseen
  | some seen =>
    if hlt : after < seen then isTrue ⟨seen, h, hlt⟩
    else isFalse fun ⟨_, hseen, hafter⟩ => hlt (by rw [h] at hseen; cases hseen; exact hafter)

/-- The client counter of an event: the charger is reset when it went back. -/
def observe (c : LocalCharger κ) (after : UInt32) : LocalCharger κ :=
  if c.Rewound after then { kart := c.kart, client := some after } else { c with client := some after }

@[simp] theorem kart_observe (c : LocalCharger κ) (after : UInt32) : (c.observe after).kart = c.kart := by
  unfold observe
  split
  · rfl
  · rfl

end LocalCharger

/-- What the chargers are to do under a profile. -/
structure ChargerLaw (κ : Type) where
  tuning : ChargerTuning
  generation : UInt32 := 0
  kartId : UInt16 := 0
  /-- The last ticks of the karts since the profile was applied. -/
  ticks : κ → Option Nat := fun _ => none
  /-- The charger of the local kart. -/
  charger : Option (LocalCharger κ) := none

namespace ChargerLaw

variable {κ ν : Type} [DecidableEq κ]

/-- The charger after the client counter of an event was seen: the first counted use makes its kart the local one. -/
def observed (law : ChargerLaw κ) (kart : κ) (after : UInt32) (counted : Bool) : Option (LocalCharger κ) :=
  match law.charger with
  | some c => some (if c.kart = kart then c.observe after else c)
  | none => if counted = true ∧ law.tuning.enabled = true then some { kart := kart, client := some after } else none

/-- Under a local kart an event observes its own charger. -/
theorem observed_of_some {law : ChargerLaw κ} {c : LocalCharger κ} (h : law.charger = some c) (kart : κ) (after : UInt32)
    (counted : Bool) : law.observed kart after counted = some (if c.kart = kart then c.observe after else c) := by
  unfold observed
  rw [h]

/-- Without one, a counted use makes its kart the local one. -/
theorem observed_of_none {law : ChargerLaw κ} (h : law.charger = none) (kart : κ) (after : UInt32) (counted : Bool) :
    law.observed kart after counted =
      if counted = true ∧ law.tuning.enabled = true then some { kart := kart, client := some after } else none := by
  unfold observed
  rw [h]

/-- An event. -/
def event (law : ChargerLaw κ) (kart : κ) (after : UInt32) (counted : Bool) : ChargerLaw κ :=
  { law with
    charger := (law.observed kart after counted).map fun c =>
      if c.kart = kart ∧ counted = true then c.use law.tuning ((law.ticks kart).getD 0) else c }

/-- A tick earlier than the last one resets the charger. -/
def rewind (law : ChargerLaw κ) (kart : κ) (now : Nat) (c : LocalCharger κ) : LocalCharger κ :=
  if c.kart = kart ∧ now < (law.ticks kart).getD 0 then { kart := kart } else c

theorem kart_rewind (law : ChargerLaw κ) (kart : κ) (now : Nat) (c : LocalCharger κ) : (law.rewind kart now c).kart = c.kart := by
  unfold rewind
  split
  · rename_i hand
    exact hand.1.symm
  · rfl

/-- A tick is noted. -/
def noteTick (law : ChargerLaw κ) (kart : κ) (now : Nat) : ChargerLaw κ :=
  { law with
    ticks := Function.update law.ticks kart (some now)
    charger := law.charger.map (law.rewind kart now) }

/-- A tick: what it does to a charger comes after it was noted. -/
def tick (law : ChargerLaw κ) (kart : κ) (now : Nat) : ChargerLaw κ :=
  { law.noteTick kart now with
    charger := (law.noteTick kart now).charger.map fun c => if c.kart = kart then c.tick law.tuning now else c }

/-- A profile. -/
def profile (tuning : ChargerTuning) (generation : UInt32) (kartId : UInt16) : ChargerLaw κ :=
  { tuning := tuning, generation := generation, kartId := kartId }

/-- What a call is to do. -/
def perform (law : ChargerLaw κ) : PhysicsRuntime.Call κ ν → ChargerLaw κ
  | .applyServerProfile tuning generation kartId => profile tuning generation kartId
  | .resetServerProfile =>
    if law.tuning.enabled = false ∧ law.generation = 0 ∧ law.kartId = 0 then law else profile {} 0 0
  | .observeDriveEvent none _ _ _ _ | .observePhysicsTick none _ _ _ => law
  | .observeDriveEvent (some kart) eventKind accepted before after =>
    law.event kart after (shouldCountBoosterEvent eventKind (accepted != 0) before after)
  | .observePhysicsTick (some kart) now _ _ => law.tick kart now.toNat

end ChargerLaw

end P5136.Xun
