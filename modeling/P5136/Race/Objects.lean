import Mathlib.Algebra.Ring.Int.Defs
import Mathlib.Algebra.Ring.Nat
import P5136.Lib.FiniteMap

/-!
# Race objects

The registry of the item objects that a race has seen. An operation on an object is planned against the registry, which
answers that it is to be relayed and tracked, relayed without a trace, or suppressed as a duplicate; the plan is committed
later, and only against the revision it was made for.
-/

namespace P5136

/-- `MAX_RACE_OBJECTS`. -/
def maxRaceObjects : Nat := 1024

/-- Who acts on an object. -/
structure RaceObjectActor where
  userNo : Nat
  generation : Nat
  playerId : Nat
deriving DecidableEq

/-- The native class of an object. -/
structure RaceObjectClass where
  operationHash : Nat
  baseHash : Nat
deriving DecidableEq

/-- `ItemLifecycleMeaning`: what an operation means for the life of its object. -/
inductive ItemLifecycleMeaning where
  | unknown
  | init
  | place
  | launch
  | activate
  | impact
  | resolve
  | retarget
  | remove
  | rebindSource
  | respawn
  | updateRuntimeFlag
  | noClientAction
deriving DecidableEq

inductive ItemSemanticEvidence where
  | unresolved
  | staticConsumer
  | producerAndConsumer
  | retainedTraceCorrelated
deriving DecidableEq

inductive RaceObjectPhase where
  | initialized
  | active
  | hit
  | removed
deriving DecidableEq

inductive RaceObjectDuplicateKind where
  | install
  | activation
  | hit
  | removal
  | terminalState
  | runtimeFlagUpdate
deriving DecidableEq

structure RaceObjectOperation where
  raceEpoch : Nat
  cls : RaceObjectClass
  objectId : Nat
  state : Nat
  meaning : ItemLifecycleMeaning
  evidence : ItemSemanticEvidence
  transitionToken : Option Nat
  sourceObjectId : Option Nat
  targetObjectId : Option Nat
  variant : Option Nat
  reporter : RaceObjectActor
  ownerClaim : Option RaceObjectActor
deriving DecidableEq

structure RaceObjectKey where
  raceEpoch : Nat
  objectId : Nat
deriving DecidableEq

structure RaceObjectRecord where
  cls : RaceObjectClass
  owner : RaceObjectActor
  lastReporter : RaceObjectActor
  phase : RaceObjectPhase
  lastState : Nat
  lastMeaning : ItemLifecycleMeaning
  lastTransitionToken : Option Nat
  lastSourceObjectId : Option Nat
  lastTargetObjectId : Option Nat
  runtimeFlag : Option Nat
deriving DecidableEq

/-- `RaceObjectMutation`: the record that a plan puts at a key, for the revision it was made against. -/
structure RaceObjectMutation where
  expectedRevision : Nat
  key : RaceObjectKey
  next : RaceObjectRecord
deriving DecidableEq

inductive RaceObjectAdmission where
  | publishTracked (mutation : RaceObjectMutation)
  | publishUntracked
  | suppressDuplicate (objectId : Nat) (phase : RaceObjectPhase) (state : Nat) (kind : RaceObjectDuplicateKind)
deriving DecidableEq

inductive RaceObjectRegistryError where
  | capacity (raceEpoch objectId maximum : Nat)
  | classMismatch (raceEpoch objectId : Nat) (expected actual : RaceObjectClass)
  | ownerMismatch (raceEpoch objectId : Nat) (expected actual : RaceObjectActor)
  | stalePlan (plannedRevision currentRevision : Nat)
deriving DecidableEq

/-- `RaceObjectRegistry`: the revision is an unsigned 64-bit number. -/
structure RaceObjectRegistry where
  revision : Nat
  objects : FiniteMap RaceObjectKey RaceObjectRecord
deriving DecidableEq

namespace RaceObjectRegistry

/-- `default`. -/
def empty : RaceObjectRegistry := ⟨0, ∅⟩

def ensureCapacity (registry : RaceObjectRegistry) (key : RaceObjectKey) : Except RaceObjectRegistryError Unit :=
  if maxRaceObjects ≤ registry.objects.size then .error (.capacity key.raceEpoch key.objectId maxRaceObjects) else .ok ()

/-- The record with what an operation reports. -/
def advanced (current : RaceObjectRecord) (operation : RaceObjectOperation) (phase : RaceObjectPhase) : RaceObjectRecord :=
  { current with
    lastReporter := operation.reporter
    phase := phase
    lastState := operation.state
    lastMeaning := operation.meaning
    lastTransitionToken := operation.transitionToken
    lastSourceObjectId := operation.sourceObjectId
    lastTargetObjectId := operation.targetObjectId }

/-- The record of an object seen for the first time. -/
def minted (operation : RaceObjectOperation) (phase : RaceObjectPhase) : RaceObjectRecord where
  cls := operation.cls
  owner := operation.ownerClaim.getD operation.reporter
  lastReporter := operation.reporter
  phase := phase
  lastState := operation.state
  lastMeaning := operation.meaning
  lastTransitionToken := operation.transitionToken
  lastSourceObjectId := operation.sourceObjectId
  lastTargetObjectId := operation.targetObjectId
  runtimeFlag := none

def nextRecord (registry : RaceObjectRegistry) (key : RaceObjectKey) (current : Option RaceObjectRecord)
    (operation : RaceObjectOperation) (phase : RaceObjectPhase) : Except RaceObjectRegistryError RaceObjectRecord :=
  match current with
  | some current => .ok (advanced current operation phase)
  | none => (registry.ensureCapacity key).map (fun _ => minted operation phase)

/-- The admission that tracks a record. -/
def tracked (registry : RaceObjectRegistry) (key : RaceObjectKey) (next : RaceObjectRecord) : RaceObjectAdmission :=
  .publishTracked ⟨registry.revision, key, next⟩

/-- The admission that suppresses an operation on an object. -/
def suppressed (key : RaceObjectKey) (current : RaceObjectRecord) (operation : RaceObjectOperation)
    (kind : RaceObjectDuplicateKind) : RaceObjectAdmission :=
  .suppressDuplicate key.objectId current.phase operation.state kind

def planInstall (registry : RaceObjectRegistry) (key : RaceObjectKey) (current : Option RaceObjectRecord)
    (operation : RaceObjectOperation) : Except RaceObjectRegistryError RaceObjectAdmission :=
  match current with
  | some current =>
    if current.phase = .initialized ∧ current.lastMeaning = .init ∧
        (operation.meaning = .place ∨ operation.meaning = .launch ∨ operation.meaning = .activate) then
      (registry.nextRecord key (some current) operation .active).map (registry.tracked key)
    else .ok (suppressed key current operation .install)
  | none =>
    (registry.ensureCapacity key).map (fun _ =>
      registry.tracked key (minted operation (if operation.meaning = .init then .initialized else .active)))

def planRespawn (registry : RaceObjectRegistry) (key : RaceObjectKey) (current : Option RaceObjectRecord)
    (operation : RaceObjectOperation) : Except RaceObjectRegistryError RaceObjectAdmission :=
  match current with
  | none => .ok .publishUntracked
  | some current =>
    if current.phase = .active ∧ current.lastMeaning = .respawn ∧ current.lastState = operation.state ∧
        current.lastTransitionToken = operation.transitionToken ∧
        current.lastSourceObjectId = operation.sourceObjectId ∧
        current.lastTargetObjectId = operation.targetObjectId then
      .ok (suppressed key current operation .activation)
    else (registry.nextRecord key (some current) operation .active).map (registry.tracked key)

def planHit (registry : RaceObjectRegistry) (key : RaceObjectKey) (current : Option RaceObjectRecord)
    (operation : RaceObjectOperation) : Except RaceObjectRegistryError RaceObjectAdmission :=
  match current.filter (fun record => record.phase = .removed ∨
      (record.phase = .hit ∧ record.lastState = operation.state ∧
        record.lastTransitionToken = operation.transitionToken ∧
        record.lastTargetObjectId = operation.targetObjectId)) with
  | some current => .ok (suppressed key current operation .hit)
  | none => (registry.nextRecord key current operation .hit).map (registry.tracked key)

def planRemoval (registry : RaceObjectRegistry) (key : RaceObjectKey) (current : Option RaceObjectRecord)
    (operation : RaceObjectOperation) : Except RaceObjectRegistryError RaceObjectAdmission :=
  match current.filter (fun record => record.phase = .removed) with
  | some current => .ok (suppressed key current operation .removal)
  | none =>
    if current = none ∧ operation.evidence = .staticConsumer then .ok .publishUntracked
    else (registry.nextRecord key current operation .removed).map (registry.tracked key)

/-- `plan_state_update`: the phase stays. -/
def planStateUpdate (registry : RaceObjectRegistry) (key : RaceObjectKey) (current : Option RaceObjectRecord)
    (operation : RaceObjectOperation) : RaceObjectAdmission :=
  match current with
  | none => .publishUntracked
  | some current => registry.tracked key (advanced current operation current.phase)

/-- `plan_runtime_flag_update`: the flag changes, and none of what was last reported of the life of the object. -/
def planRuntimeFlagUpdate (registry : RaceObjectRegistry) (key : RaceObjectKey) (current : Option RaceObjectRecord)
    (operation : RaceObjectOperation) : RaceObjectAdmission :=
  match current, operation.variant with
  | none, _ => .publishUntracked
  | some _, none => .publishUntracked
  | some current, some runtimeFlag =>
    if current.runtimeFlag = some runtimeFlag then suppressed key current operation .runtimeFlagUpdate
    else registry.tracked key { current with lastReporter := operation.reporter, runtimeFlag := some runtimeFlag }

/-- `validate_existing`: an object keeps its class, and its owner where one is claimed. -/
def validateExisting (key : RaceObjectKey) (current : RaceObjectRecord) (operation : RaceObjectOperation) :
    Except RaceObjectRegistryError Unit :=
  if current.cls ≠ operation.cls then
    .error (.classMismatch key.raceEpoch key.objectId current.cls operation.cls)
  else match operation.ownerClaim.filter (fun owner => owner ≠ current.owner) with
  | some owner => .error (.ownerMismatch key.raceEpoch key.objectId current.owner owner)
  | none => .ok ()

def plan (registry : RaceObjectRegistry) (operation : RaceObjectOperation) :
    Except RaceObjectRegistryError RaceObjectAdmission :=
  let key : RaceObjectKey := ⟨operation.raceEpoch, operation.objectId⟩
  let current := registry.objects.lookup key
  if operation.meaning = .unknown ∨ operation.meaning = .noClientAction then
    match current.filter (fun record => record.cls = operation.cls ∧ record.phase = .removed) with
    | some current => .ok (suppressed key current operation .terminalState)
    | none => .ok .publishUntracked
  else
    match current.elim (.ok ()) (fun current => validateExisting key current operation) with
    | .error e => .error e
    | .ok () =>
      match current.filter (fun record => record.phase = .removed ∧
          ¬(operation.meaning = .remove ∨ operation.meaning = .respawn)) with
      | some current => .ok (suppressed key current operation .terminalState)
      | none =>
        match operation.meaning with
        | .init | .place | .launch | .activate => registry.planInstall key current operation
        | .impact => registry.planHit key current operation
        | .remove => registry.planRemoval key current operation
        | .respawn => registry.planRespawn key current operation
        | .updateRuntimeFlag => .ok (registry.planRuntimeFlagUpdate key current operation)
        | .unknown => .ok .publishUntracked
        | _ => .ok (registry.planStateUpdate key current operation)

/-- `commit`: a plan for another revision is refused. -/
def commit (registry : RaceObjectRegistry) (mutation : RaceObjectMutation) :
    Except RaceObjectRegistryError Unit × RaceObjectRegistry :=
  if mutation.expectedRevision ≠ registry.revision then
    (.error (.stalePlan mutation.expectedRevision registry.revision), registry)
  else
    (.ok (), { revision := (registry.revision + 1) % 2 ^ 64, objects := registry.objects.insert mutation.key mutation.next })

/-! ## A plan and its commit -/

/-- The record that a plan which tracks an object puts at its key: a new one, where the registry has room; the one there with what
the operation reports; or the one there with another runtime flag. -/
inductive Puts (registry : RaceObjectRegistry) (current : Option RaceObjectRecord) (operation : RaceObjectOperation) :
    RaceObjectRecord → Prop
  | minted {phase : RaceObjectPhase} (hcurrent : current = none) (hroom : registry.objects.size < maxRaceObjects)
      (himpact : operation.meaning = .impact → phase = .hit) (hflag : operation.meaning ≠ .updateRuntimeFlag) :
      Puts registry current operation (minted operation phase)
  | advanced {record : RaceObjectRecord} {phase : RaceObjectPhase} (hcurrent : current = some record)
      (hphase : phase = .initialized → record.phase = .initialized)
      (himpact : operation.meaning = .impact → phase = .hit) (hflag : operation.meaning ≠ .updateRuntimeFlag) :
      Puts registry current operation (advanced record operation phase)
  | flagged {record : RaceObjectRecord} {runtimeFlag : Option Nat} (hcurrent : current = some record)
      (hflag : operation.meaning = .updateRuntimeFlag) :
      Puts registry current operation { record with lastReporter := operation.reporter, runtimeFlag := runtimeFlag }

/-- A record that is tracked once made is the one made. -/
theorem map_tracked {registry : RaceObjectRegistry} {key : RaceObjectKey}
    {r : Except RaceObjectRegistryError RaceObjectRecord} {m : RaceObjectMutation}
    (h : r.map (registry.tracked key) = .ok (.publishTracked m)) :
    ∃ next, r = .ok next ∧ m = ⟨registry.revision, key, next⟩ := by
  cases r with
  | error e => cases h
  | ok next =>
    cases h
    exact ⟨next, rfl, rfl⟩

/-- An operation that is suppressed is not tracked. -/
theorem suppressed_ne {key : RaceObjectKey} {current : RaceObjectRecord} {operation : RaceObjectOperation}
    {kind : RaceObjectDuplicateKind} {m : RaceObjectMutation} :
    (.ok (suppressed key current operation kind) : Except RaceObjectRegistryError RaceObjectAdmission) ≠
      .ok (.publishTracked m) := by
  rintro ⟨⟩

/-- A registry with room for a key is not full. -/
theorem size_lt_of_ensureCapacity {registry : RaceObjectRegistry} {key : RaceObjectKey} {u : Unit}
    (h : registry.ensureCapacity key = .ok u) : registry.objects.size < maxRaceObjects := by
  unfold ensureCapacity at h
  split at h
  · cases h
  · omega

section

variable {registry : RaceObjectRegistry} {key : RaceObjectKey} {current : Option RaceObjectRecord}
  {operation : RaceObjectOperation} {m : RaceObjectMutation}

theorem nextRecord_puts {phase : RaceObjectPhase} {next : RaceObjectRecord}
    (h : registry.nextRecord key current operation phase = .ok next) (hphase : phase ≠ .initialized)
    (himpact : operation.meaning = .impact → phase = .hit) (hflag : operation.meaning ≠ .updateRuntimeFlag) :
    Puts registry current operation next := by
  cases current with
  | some record =>
    cases h
    exact .advanced rfl (fun heq => absurd heq hphase) himpact hflag
  | none =>
    rcases hroom : registry.ensureCapacity key with _ | u
    · simp [nextRecord, hroom, Except.map] at h
    · simp only [nextRecord, hroom, Except.map, Except.ok.injEq] at h
      subst h
      exact .minted rfl (size_lt_of_ensureCapacity hroom) himpact hflag

/-- A plan that tracks the record made of the current one puts that record. -/
theorem puts_of_map_tracked {phase : RaceObjectPhase}
    (h : (registry.nextRecord key current operation phase).map (registry.tracked key) = .ok (.publishTracked m))
    (hphase : phase ≠ .initialized) (himpact : operation.meaning = .impact → phase = .hit)
    (hflag : operation.meaning ≠ .updateRuntimeFlag) :
    ∃ next, m = ⟨registry.revision, key, next⟩ ∧ Puts registry current operation next := by
  obtain ⟨next, hnext, hm⟩ := map_tracked h
  exact ⟨next, hm, nextRecord_puts hnext hphase himpact hflag⟩

theorem planInstall_puts (h : registry.planInstall key current operation = .ok (.publishTracked m))
    (himpact : operation.meaning ≠ .impact) (hflag : operation.meaning ≠ .updateRuntimeFlag) :
    ∃ next, m = ⟨registry.revision, key, next⟩ ∧ Puts registry current operation next := by
  unfold planInstall at h
  split at h
  · split at h
    · exact puts_of_map_tracked h (by simp) (fun heq => absurd heq himpact) hflag
    · exact absurd h suppressed_ne
  · rcases hroom : registry.ensureCapacity key with _ | u
    · simp [hroom, Except.map] at h
    · simp only [hroom, Except.map, Except.ok.injEq] at h
      cases h
      exact ⟨_, rfl, .minted rfl (size_lt_of_ensureCapacity hroom) (fun heq => absurd heq himpact) hflag⟩

theorem planRespawn_puts (h : registry.planRespawn key current operation = .ok (.publishTracked m))
    (himpact : operation.meaning ≠ .impact) (hflag : operation.meaning ≠ .updateRuntimeFlag) :
    ∃ next, m = ⟨registry.revision, key, next⟩ ∧ Puts registry current operation next := by
  unfold planRespawn at h
  split at h
  · cases h
  · split at h
    · exact absurd h suppressed_ne
    · exact puts_of_map_tracked h (by simp) (fun heq => absurd heq himpact) hflag

theorem planHit_puts (h : registry.planHit key current operation = .ok (.publishTracked m))
    (hflag : operation.meaning ≠ .updateRuntimeFlag) :
    ∃ next, m = ⟨registry.revision, key, next⟩ ∧ Puts registry current operation next := by
  unfold planHit at h
  split at h
  · exact absurd h suppressed_ne
  · exact puts_of_map_tracked h (by simp) (fun _ => rfl) hflag

theorem planRemoval_puts (h : registry.planRemoval key current operation = .ok (.publishTracked m))
    (himpact : operation.meaning ≠ .impact) (hflag : operation.meaning ≠ .updateRuntimeFlag) :
    ∃ next, m = ⟨registry.revision, key, next⟩ ∧ Puts registry current operation next := by
  unfold planRemoval at h
  split at h
  · exact absurd h suppressed_ne
  · split at h
    · cases h
    · exact puts_of_map_tracked h (by simp) (fun heq => absurd heq himpact) hflag

theorem planStateUpdate_puts (h : registry.planStateUpdate key current operation = .publishTracked m)
    (himpact : operation.meaning ≠ .impact) (hflag : operation.meaning ≠ .updateRuntimeFlag) :
    ∃ next, m = ⟨registry.revision, key, next⟩ ∧ Puts registry current operation next := by
  unfold planStateUpdate at h
  split at h
  · cases h
  · cases h
    exact ⟨_, rfl, .advanced rfl id (fun heq => absurd heq himpact) hflag⟩

theorem planRuntimeFlagUpdate_puts (h : registry.planRuntimeFlagUpdate key current operation = .publishTracked m)
    (hflag : operation.meaning = .updateRuntimeFlag) :
    ∃ next, m = ⟨registry.revision, key, next⟩ ∧ Puts registry current operation next := by
  unfold planRuntimeFlagUpdate at h
  split at h
  · cases h
  · cases h
  · split at h
    · cases h
    · cases h
      exact ⟨_, rfl, .flagged rfl hflag⟩

end

/-- What a plan that tracks an object is: for the current revision, at the operation's key, with a record that the operation may
put there. Where the key has a record the operation is on an object of its class, by its owner where one is claimed, and on a
removed one only a respawn. -/
structure Tracks (registry : RaceObjectRegistry) (operation : RaceObjectOperation) (m : RaceObjectMutation) : Prop where
  revision : m.expectedRevision = registry.revision
  key : m.key = ⟨operation.raceEpoch, operation.objectId⟩
  meaning : operation.meaning ≠ .unknown ∧ operation.meaning ≠ .noClientAction
  puts : Puts registry (registry.objects.lookup m.key) operation m.next
  validated : ∀ record, registry.objects.lookup m.key = some record → validateExisting m.key record operation = .ok ()
  terminal : ∀ record, registry.objects.lookup m.key = some record → record.phase = .removed → operation.meaning = .respawn

/-- Every plan that tracks an object is such a plan. -/
theorem plan_tracks {registry : RaceObjectRegistry} {operation : RaceObjectOperation} {m : RaceObjectMutation}
    (h : registry.plan operation = .ok (.publishTracked m)) : Tracks registry operation m := by
  generalize hcurrent : registry.objects.lookup ⟨operation.raceEpoch, operation.objectId⟩ = current
  simp only [plan, hcurrent] at h
  split at h
  · split at h
    · exact absurd h suppressed_ne
    · cases h
  · rename_i hmeaning
    rw [not_or] at hmeaning
    split at h
    · cases h
    · rename_i hvalid
      split at h
      · exact absurd h suppressed_ne
      · rename_i hterminal
        have hvalidated : ∀ record, current = some record →
            validateExisting ⟨operation.raceEpoch, operation.objectId⟩ record operation = .ok () := by
          rintro record rfl
          exact hvalid
        have hclosed : ∀ record, current = some record → record.phase = .removed →
            operation.meaning = .remove ∨ operation.meaning = .respawn := by
          rintro record rfl hphase
          by_contra hneither
          simp [hphase, hneither] at hterminal
        -- what is planned is tracked once it is known what the plan puts, and that a removed object is not removed again
        have htracks : (∃ next, m = ⟨registry.revision, ⟨operation.raceEpoch, operation.objectId⟩, next⟩ ∧
            Puts registry current operation next) →
            (∀ record, current = some record → record.phase = .removed → operation.meaning = .respawn) →
            Tracks registry operation m := by
          rintro ⟨next, rfl, hputs⟩ hrespawn
          subst hcurrent
          exact ⟨rfl, rfl, hmeaning, hputs, hvalidated, hrespawn⟩
        have hopen : operation.meaning ≠ .remove →
            ∀ record, current = some record → record.phase = .removed → operation.meaning = .respawn :=
          fun hne record hrecord hphase => (hclosed record hrecord hphase).resolve_left hne
        rcases hm : operation.meaning <;> simp only [hm] at h
        · exact absurd hm hmeaning.1
        · exact htracks (planInstall_puts h (by simp [hm]) (by simp [hm])) (hopen (by simp [hm]))
        · exact htracks (planInstall_puts h (by simp [hm]) (by simp [hm])) (hopen (by simp [hm]))
        · exact htracks (planInstall_puts h (by simp [hm]) (by simp [hm])) (hopen (by simp [hm]))
        · exact htracks (planInstall_puts h (by simp [hm]) (by simp [hm])) (hopen (by simp [hm]))
        · exact htracks (planHit_puts h (by simp [hm])) (hopen (by simp [hm]))
        · exact htracks (planStateUpdate_puts (Except.ok.inj h) (by simp [hm]) (by simp [hm])) (hopen (by simp [hm]))
        · exact htracks (planStateUpdate_puts (Except.ok.inj h) (by simp [hm]) (by simp [hm])) (hopen (by simp [hm]))
        · refine htracks (planRemoval_puts h (by simp [hm]) (by simp [hm])) ?_
          rintro record rfl hphase
          simp [planRemoval, hphase, Option.filter, suppressed] at h
        · exact htracks (planStateUpdate_puts (Except.ok.inj h) (by simp [hm]) (by simp [hm])) (hopen (by simp [hm]))
        · exact htracks (planRespawn_puts h (by simp [hm]) (by simp [hm])) (hopen (by simp [hm]))
        · exact htracks (planRuntimeFlagUpdate_puts (Except.ok.inj h) hm) (hopen (by simp [hm]))
        · exact absurd hm hmeaning.2

end RaceObjectRegistry

end P5136
