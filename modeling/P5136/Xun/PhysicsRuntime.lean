import P5136.Lib.SlotTable
import P5136.Xun.PhysicsState

/-!
# The charger runtime

The sidecar tracks the karts the client calls it for in a table of 32 slots, and runs a charger for the local one: the kart of
the first counted booster use under a profile. What the renderer answers is handed to a tick: the visual it created, and whether
it changed the state of a visual.
-/

namespace P5136.Xun

structure TrackedKart (κ ν : Type) where
  key : Option κ := none
  lastTickMs : UInt32 := 0
  tickCalls : UInt32 := 0
  lastTickLogMs : UInt32 := 0
  sawDriveEvent : Bool := false
  visualCreateInFlight : Bool := false
  visualActive : Bool := false
  sawClientBoosterCounter : Bool := false
  lastVisualCreateAttemptMs : UInt32 := 0
  lastClientBoosterUses : UInt32 := 0
  chargerVisual : Option ν := none
  charger : ChargerState := {}
deriving DecidableEq

/-- `P5136XunPhysicsProbeSnapshot`. -/
structure PhysicsProbe where
  driveEventCalls : UInt32 := 0
  physicsTickCalls : UInt32 := 0
  chargerActivations : UInt32 := 0
  chargerDeactivations : UInt32 := 0
  activeKarts : UInt32 := 0
  chargerResourceRegistrations : UInt32 := 0
  chargerEffectSpawns : UInt32 := 0
  chargerEffectRemovals : UInt32 := 0

/-- The globals of the runtime. -/
structure PhysicsRuntime (κ ν : Type) where
  tuning : ChargerTuning
  karts : Fin 32 → TrackedKart κ ν := fun _ => {}
  probe : PhysicsProbe := {}
  localKart : Option κ := none
  profileGeneration : UInt32 := 0
  profileKartId : UInt16 := 0

namespace PhysicsRuntime

variable {κ ν : Type}

/-- `p5136_xun_configure_physics_probe`. -/
def configure (tuning : ChargerTuning) : PhysicsRuntime κ ν := { tuning := tuning }

/-- Another entry in a slot. -/
def set (g : PhysicsRuntime κ ν) (slot : Fin 32) (entry : TrackedKart κ ν) : PhysicsRuntime κ ν :=
  { g with karts := Function.update g.karts slot entry }

/-- The active karts without one. -/
def withoutActive (g : PhysicsRuntime κ ν) : PhysicsRuntime κ ν :=
  if g.probe.activeKarts ≠ 0 then { g with probe := { g.probe with activeKarts := g.probe.activeKarts - 1 } } else g

def discardState (g : PhysicsRuntime κ ν) (slot : Fin 32) : PhysicsRuntime κ ν :=
  (if (g.karts slot).charger.active = true then g.withoutActive else g).set slot {}

/-- The keys of the slots. -/
def key (g : PhysicsRuntime κ ν) (slot : Fin 32) : Option κ := (g.karts slot).key

/-- The last ticks of the slots. -/
def lastTick (g : PhysicsRuntime κ ν) (slot : Fin 32) : UInt32 := (g.karts slot).lastTickMs

/-- Their times. -/
def age (g : PhysicsRuntime κ ν) (slot : Fin 32) : Nat := (g.lastTick slot).toNat

variable [DecidableEq κ]

/-- The loop of `find_or_allocate_kart`. -/
def search (g : PhysicsRuntime κ ν) (kart : κ) : SlotTable.Found 32 :=
  SlotTable.searchFrom g.key g.age kart (List.finRange 32) 0

def findOrAllocateKart (g : PhysicsRuntime κ ν) (kart : κ) (now : UInt32) (resetOnTimeRewind : Bool) :
    PhysicsRuntime κ ν × Fin 32 :=
  match g.search kart with
  | .known slot =>
    if resetOnTimeRewind = true ∧ now < g.lastTick slot then
      ((g.discardState slot).set slot
        { key := some kart, chargerVisual := (g.karts slot).chargerVisual, visualActive := (g.karts slot).visualActive }, slot)
    else (g, slot)
  | .free slot => (g.set slot { key := some kart }, slot)
  | .oldest slot => ((g.discardState slot).set slot { key := some kart }, slot)

def recordTransition (g : PhysicsRuntime κ ν) (transition : ChargerTransition) : PhysicsRuntime κ ν :=
  match transition with
  | .none => g
  | .activated =>
    { g with probe := { g.probe with
        chargerActivations := g.probe.chargerActivations + 1
        activeKarts := g.probe.activeKarts + 1 } }
  | .deactivated =>
    { g with probe := { g.probe with chargerDeactivations := g.probe.chargerDeactivations + 1 } }.withoutActive

/-! ## The visual -/

/-- The first slot of a kart. -/
def slotOf (g : PhysicsRuntime κ ν) (kart : κ) : Option (Fin 32) :=
  (List.finRange 32).find? fun slot => g.key slot = some kart

/-- `Action` of `synchronize_charger_visual`. -/
inductive VisualAction where
  | none
  | create
  | start
  | stop
deriving DecidableEq

/-- The first lock of `synchronize_charger_visual`: what is to be done with the visual of an entry of the local kart. -/
def planVisual (g : PhysicsRuntime κ ν) (slot : Fin 32) (now : UInt32) : PhysicsRuntime κ ν × VisualAction :=
  let entry := g.karts slot
  let shouldBeActive := g.tuning.enabled && entry.charger.active
  if shouldBeActive = true ∧ entry.chargerVisual.isNone ∧ entry.visualCreateInFlight = false ∧
      (entry.lastVisualCreateAttemptMs = 0 ∨ now - entry.lastVisualCreateAttemptMs ≥ 1000) then
    ({ g.set slot { entry with visualCreateInFlight := true, lastVisualCreateAttemptMs := now } with
        probe := { g.probe with chargerResourceRegistrations := g.probe.chargerResourceRegistrations + 1 } }, .create)
  else if entry.chargerVisual.isSome ∧ shouldBeActive ≠ entry.visualActive then
    (g, if shouldBeActive = true then .start else .stop)
  else (g, .none)

/-- The second lock: the visual that was created is retained when the charger still wants one. -/
def retainVisual (g : PhysicsRuntime κ ν) (slot : Fin 32) (created : Option ν) : PhysicsRuntime κ ν × Bool :=
  let entry := { g.karts slot with visualCreateInFlight := false }
  if created.isSome ∧ g.tuning.enabled = true ∧ entry.charger.active = true ∧ entry.chargerVisual.isNone then
    (g.set slot { entry with chargerVisual := created }, true)
  else (g.set slot entry, false)

/-- The third lock: the state of the visual, when the renderer changed it. -/
def changeVisual (g : PhysicsRuntime κ ν) (slot : Fin 32) (activate changed : Bool) : PhysicsRuntime κ ν :=
  if changed = true then
    { g.set slot { g.karts slot with visualActive := activate } with
      probe :=
        if activate = true then { g.probe with chargerEffectSpawns := g.probe.chargerEffectSpawns + 1 }
        else { g.probe with chargerEffectRemovals := g.probe.chargerEffectRemovals + 1 } }
  else g

/-- `synchronize_charger_visual`, with the answers of the renderer. -/
def synchronizeChargerVisual (g : PhysicsRuntime κ ν) (kart : κ) (now : UInt32) (created : Option ν) (changed : Bool) :
    PhysicsRuntime κ ν :=
  match g.slotOf kart with
  | none => g
  | some slot =>
    if g.localKart ≠ some kart then g
    else
      match g.planVisual slot now with
      | (g, .none) => g
      | (g, .start) => g.changeVisual slot true changed
      | (g, .stop) => g.changeVisual slot false changed
      | (g, .create) =>
        match g.retainVisual slot created with
        | (g, true) => g.changeVisual slot true changed
        | (g, false) => g

/-! ## The calls -/

/-- `p5136_xun_apply_server_profile`: the entries with a visual keep it and their key. -/
def applyServerProfile (g : PhysicsRuntime κ ν) (tuning : ChargerTuning) (generation : UInt32) (kartId : UInt16) :
    PhysicsRuntime κ ν :=
  { tuning := tuning
    karts := fun slot =>
      if (g.karts slot).key.isSome ∧ (g.karts slot).chargerVisual.isSome then
        { key := (g.karts slot).key, chargerVisual := (g.karts slot).chargerVisual, visualActive := (g.karts slot).visualActive }
      else {}
    probe := { g.probe with activeKarts := 0 }
    localKart := none
    profileGeneration := generation
    profileKartId := kartId }

/-- `p5136_xun_reset_server_profile`. -/
def resetServerProfile (g : PhysicsRuntime κ ν) : PhysicsRuntime κ ν :=
  if g.tuning.enabled = false ∧ g.profileGeneration = 0 ∧ g.profileKartId = 0 then g else g.applyServerProfile {} 0 0

/-- The race boundary of an event: the client's counter of the local kart went back. -/
def raceReset (g : PhysicsRuntime κ ν) (slot : Fin 32) (kart : κ) (after : UInt32) : Bool :=
  g.tuning.enabled && decide (g.localKart = some kart) &&
    clientBoosterCounterRewound (g.karts slot).sawClientBoosterCounter (g.karts slot).lastClientBoosterUses after

/-- The client's counter is noted, and a race boundary resets the charger. -/
def noteClientCounter (g : PhysicsRuntime κ ν) (slot : Fin 32) (kart : κ) (after : UInt32) : PhysicsRuntime κ ν :=
  let entry := { g.karts slot with sawDriveEvent := true, sawClientBoosterCounter := true, lastClientBoosterUses := after }
  if g.raceReset slot kart after = true then
    (if (g.karts slot).charger.active = true then g.withoutActive else g).set slot { entry with charger := {} }
  else g.set slot entry

/-- The first counted use under a profile makes its kart the local one. -/
def bindLocalKart (g : PhysicsRuntime κ ν) (kart : κ) (counted : Bool) : PhysicsRuntime κ ν :=
  if counted = true ∧ g.tuning.enabled = true ∧ g.localKart = none then { g with localKart := some kart } else g

/-- The charger of a slot after an event or a tick. -/
def transit (g : PhysicsRuntime κ ν) (slot : Fin 32) (next : ChargerState × ChargerTransition) : PhysicsRuntime κ ν :=
  (g.set slot { g.karts slot with charger := next.1 }).recordTransition next.2

/-- `p5136_xun_observe_drive_event`. -/
def observeDriveEvent (g : PhysicsRuntime κ ν) (kart : Option κ) (eventKind accepted before after : UInt32) :
    PhysicsRuntime κ ν :=
  match kart with
  | none => g
  | some kart =>
    let counted := shouldCountBoosterEvent eventKind (accepted != 0) before after
    let g := { g with probe := { g.probe with driveEventCalls := g.probe.driveEventCalls + 1 } }
    let (g, slot) := g.findOrAllocateKart kart 0 false
    let g := (g.noteClientCounter slot kart after).bindLocalKart kart counted
    if g.localKart ≠ some kart then g
    else g.transit slot ((g.karts slot).charger.observeDriveEvent g.tuning (g.lastTick slot) eventKind.toUInt8 (!counted))

/-- The times of a tick. -/
def noteTick (g : PhysicsRuntime κ ν) (slot : Fin 32) (now : UInt32) : PhysicsRuntime κ ν :=
  g.set slot { g.karts slot with lastTickMs := now, tickCalls := (g.karts slot).tickCalls + 1 }

/-- The time of the last tick that was logged. -/
def noteTickLog (g : PhysicsRuntime κ ν) (slot : Fin 32) (now : UInt32) : PhysicsRuntime κ ν :=
  let entry := g.karts slot
  if entry.tickCalls = 1 ∨
      entry.sawDriveEvent = true ∧ (entry.lastTickLogMs = 0 ∨ now - entry.lastTickLogMs ≥ 1000) then
    g.set slot { entry with lastTickLogMs := now }
  else g

/-- `p5136_xun_observe_physics_tick`, with the answers of the renderer. -/
def observePhysicsTick (g : PhysicsRuntime κ ν) (kart : Option κ) (now : UInt32) (created : Option ν) (changed : Bool) :
    PhysicsRuntime κ ν :=
  match kart with
  | none => g
  | some kart =>
    let g := { g with probe := { g.probe with physicsTickCalls := g.probe.physicsTickCalls + 1 } }
    let (g, slot) := g.findOrAllocateKart kart now true
    let g := g.noteTick slot now
    if g.localKart ≠ none ∧ g.localKart ≠ some kart then g
    else
      let g := g.transit slot ((g.karts slot).charger.tick g.tuning now)
      (g.noteTickLog slot now).synchronizeChargerVisual kart now created changed

/-- A call of the runtime. -/
inductive Call (κ ν : Type) where
  | applyServerProfile (tuning : ChargerTuning) (generation : UInt32) (kartId : UInt16)
  | resetServerProfile
  | observeDriveEvent (kart : Option κ) (eventKind accepted before after : UInt32)
  | observePhysicsTick (kart : Option κ) (now : UInt32) (created : Option ν) (changed : Bool)

/-- The kart of a call. -/
def Call.kart : Call κ ν → Option κ
  | .applyServerProfile _ _ _ | .resetServerProfile => none
  | .observeDriveEvent kart _ _ _ _ | .observePhysicsTick kart _ _ _ => kart

/-- What a call does. -/
def perform (g : PhysicsRuntime κ ν) : Call κ ν → PhysicsRuntime κ ν
  | .applyServerProfile tuning generation kartId => g.applyServerProfile tuning generation kartId
  | .resetServerProfile => g.resetServerProfile
  | .observeDriveEvent kart eventKind accepted before after => g.observeDriveEvent kart eventKind accepted before after
  | .observePhysicsTick kart now created changed => g.observePhysicsTick kart now created changed

/-- What one call after the other does. -/
def run (g : PhysicsRuntime κ ν) (calls : List (Call κ ν)) : PhysicsRuntime κ ν := calls.foldl perform g

end PhysicsRuntime

end P5136.Xun
