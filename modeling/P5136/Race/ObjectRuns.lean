import P5136.Race.Objects

/-!
# Runs of the registry of race objects

Operations are planned against the registry at one time and their plans committed at another, in any order, also more than once.
What a run keeps: the class and the owner of every object, the removed phase until a respawn, the bound of the registry, and the
fingerprint of a hit against whatever does not advance the life of its object.
-/

namespace P5136
namespace RaceObjectRegistry

/-- The registry and the plans made so far, each with its operation. -/
structure Desk where
  registry : RaceObjectRegistry
  planned : List (RaceObjectOperation × RaceObjectMutation)

/-- A step: an operation is planned, or a plan made before is committed. -/
inductive Command where
  | plan (operation : RaceObjectOperation)
  | commit (index : Nat)

/-- The plan that a registry makes of an operation, when it tracks the object. -/
def trackedPlan (registry : RaceObjectRegistry) (operation : RaceObjectOperation) : Option RaceObjectMutation :=
  match registry.plan operation with
  | .ok (.publishTracked m) => some m
  | _ => none

/-- One step. -/
def Desk.perform (desk : Desk) : Command → Desk
  | .plan operation =>
    match desk.registry.trackedPlan operation with
    | some m => { desk with planned := desk.planned ++ [(operation, m)] }
    | none => desk
  | .commit index =>
    match desk.planned[index]? with
    | some (_, m) => { desk with registry := (desk.registry.commit m).2 }
    | none => desk

/-- The steps one after the other. -/
def Desk.performAll (desk : Desk) (commands : List Command) : Desk := commands.foldl Desk.perform desk

/-- A run from the empty registry. -/
def run (commands : List Command) : Desk := Desk.performAll ⟨empty, []⟩ commands

/-- A step is a commit. -/
def Command.commits : Command → Nat
  | .plan _ => 0
  | .commit _ => 1

/-- The commits among the steps. -/
def commits (commands : List Command) : Nat := (commands.map Command.commits).sum

/-! ## One commit -/

theorem trackedPlan_eq_some {registry : RaceObjectRegistry} {operation : RaceObjectOperation} {m : RaceObjectMutation} :
    registry.trackedPlan operation = some m ↔ registry.plan operation = .ok (.publishTracked m) := by
  unfold trackedPlan
  constructor
  · intro h
    split at h
    · rename_i hplan
      cases h
      exact hplan
    · cases h
  · intro h
    rw [h]

/-- A commit against another revision changes nothing. -/
theorem commit_stale {registry : RaceObjectRegistry} {m : RaceObjectMutation} (h : m.expectedRevision ≠ registry.revision) :
    registry.commit m = (.error (.stalePlan m.expectedRevision registry.revision), registry) := if_pos h

/-- A commit against the current revision puts the record at its key, and the revision is the next one. -/
theorem commit_current {registry : RaceObjectRegistry} {m : RaceObjectMutation} (h : m.expectedRevision = registry.revision) :
    registry.commit m =
      (.ok (), ⟨(registry.revision + 1) % 2 ^ 64, registry.objects.insert m.key m.next⟩) := if_neg (not_not.2 h)

/-- What a later registry keeps of an earlier one: every object, with its class and its owner, and none goes back to the phase
of an initialized object. -/
def Evolves (earlier later : RaceObjectRegistry) : Prop :=
  ∀ key record, earlier.objects.lookup key = some record → ∃ record', later.objects.lookup key = some record' ∧
    record'.cls = record.cls ∧ record'.owner = record.owner ∧ (record'.phase = .initialized → record.phase = .initialized)

theorem Evolves.refl (registry : RaceObjectRegistry) : Evolves registry registry :=
  fun _ record h => ⟨record, h, rfl, rfl, id⟩

theorem Evolves.trans {first second third : RaceObjectRegistry} (h : Evolves first second) (h' : Evolves second third) :
    Evolves first third := by
  intro key record hrecord
  obtain ⟨middle, hmiddle, hclass, howner, hphase⟩ := h key record hrecord
  obtain ⟨last, hlast, hclass', howner', hphase'⟩ := h' key middle hmiddle
  exact ⟨last, hlast, hclass'.trans hclass, howner'.trans howner, hphase ∘ hphase'⟩

section

variable {registry : RaceObjectRegistry} {operation : RaceObjectOperation} {m : RaceObjectMutation}

/-- The record that replaces another keeps its class and owner, and is not initialized again. -/
theorem Puts.keeps {record next : RaceObjectRecord} (h : Puts registry (some record) operation next) :
    next.cls = record.cls ∧ next.owner = record.owner ∧ (next.phase = .initialized → record.phase = .initialized) := by
  cases h with
  | minted hcurrent => cases hcurrent
  | advanced hcurrent hphase =>
    cases hcurrent
    exact ⟨rfl, rfl, hphase⟩
  | flagged hcurrent =>
    cases hcurrent
    exact ⟨rfl, rfl, id⟩

/-- Where a plan finds no record, the registry has room for one. -/
theorem Puts.room {next : RaceObjectRecord} (h : Puts registry none operation next) : registry.objects.size < maxRaceObjects := by
  cases h with
  | minted _ hroom => exact hroom
  | advanced hcurrent => cases hcurrent
  | flagged hcurrent => cases hcurrent

/-- A commit of a plan for the current revision keeps every object. -/
theorem Tracks.evolves (h : Tracks registry operation m) : Evolves registry (registry.commit m).2 := by
  intro key record hrecord
  rw [commit_current h.revision]
  by_cases hkey : key = m.key
  · subst hkey
    have hputs := h.puts
    rw [hrecord] at hputs
    exact ⟨m.next, AList.lookup_insert _, hputs.keeps⟩
  · exact ⟨record, (AList.lookup_insert_ne hkey).trans hrecord, rfl, rfl, id⟩

/-- A commit of a plan for the current revision keeps the bound of the registry. -/
theorem Tracks.size_le (h : Tracks registry operation m) (hsize : registry.objects.size ≤ maxRaceObjects) :
    (registry.commit m).2.objects.size ≤ maxRaceObjects := by
  rw [commit_current h.revision]
  change FiniteMap.size (registry.objects.insert m.key m.next) ≤ _
  rw [FiniteMap.size_insert]
  rcases hlookup : registry.objects.lookup m.key with _ | record
  · have hputs := h.puts
    rw [hlookup] at hputs
    exact hputs.room
  · exact hsize

end

/-! ## Runs -/

/-- What holds of the desk after so many commits: the revision counts no more than these, the registry is within its bound, and
every plan is for an earlier revision, or one that the registry as it is makes. -/
structure Desk.Sound (desk : Desk) (count : Nat) : Prop where
  revision : desk.registry.revision ≤ count
  size : desk.registry.objects.size ≤ maxRaceObjects
  plans : ∀ operation m, (operation, m) ∈ desk.planned → m.expectedRevision ≤ desk.registry.revision ∧
    (m.expectedRevision = desk.registry.revision → Tracks desk.registry operation m)

theorem sound_empty : Desk.Sound ⟨empty, []⟩ 0 :=
  ⟨Nat.le_refl _, Nat.zero_le _, fun _ _ h => nomatch h⟩

/-- The desk after a step: as it was, with one more plan, or with the plan of an operation committed. -/
theorem Desk.Sound.perform_cases {desk : Desk} {count : Nat} (h : desk.Sound count) (command : Command) :
    desk.perform command = desk ∨
    (∃ operation m, command = .plan operation ∧ Tracks desk.registry operation m ∧
      desk.perform command = { desk with planned := desk.planned ++ [(operation, m)] }) ∨
    ∃ index operation m, command = .commit index ∧ desk.planned[index]? = some (operation, m) ∧
      Tracks desk.registry operation m ∧ desk.perform command = { desk with registry := (desk.registry.commit m).2 } := by
  cases command with
  | plan operation =>
    rcases hplan : desk.registry.trackedPlan operation with _ | m
    · left
      simp only [Desk.perform, hplan]
    · right
      left
      exact ⟨operation, m, rfl, plan_tracks (trackedPlan_eq_some.1 hplan), by simp only [Desk.perform, hplan]⟩
  | commit index =>
    rcases hentry : desk.planned[index]? with _ | ⟨operation, m⟩
    · left
      simp only [Desk.perform, hentry]
    · by_cases hcurrent : m.expectedRevision = desk.registry.revision
      · right
        right
        have htracks := (h.plans operation m (List.mem_of_getElem? hentry)).2 hcurrent
        exact ⟨index, operation, m, rfl, hentry, htracks, by simp only [Desk.perform, hentry]⟩
      · left
        simp only [Desk.perform, hentry, commit_stale hcurrent]

/-- A step keeps what holds of the desk, while the revision does not wrap. -/
theorem Desk.Sound.perform {desk : Desk} {count : Nat} (h : desk.Sound count) (command : Command)
    (hcount : count + command.commits < 2 ^ 64) : (desk.perform command).Sound (count + command.commits) := by
  rcases h.perform_cases command with hsame | ⟨operation, m, -, htracks, hafter⟩ |
    ⟨index, operation, m, rfl, hentry, htracks, hafter⟩
  · rw [hsame]
    exact ⟨Nat.le_trans h.revision (Nat.le_add_right ..), h.size, h.plans⟩
  · rw [hafter]
    refine ⟨Nat.le_trans h.revision (Nat.le_add_right ..), h.size, fun other m' hmem => ?_⟩
    rcases List.mem_append.1 hmem with hold | hnew
    · exact h.plans other m' hold
    · simp only [List.mem_singleton, Prod.mk.injEq] at hnew
      obtain ⟨rfl, rfl⟩ := hnew
      exact ⟨Nat.le_of_eq htracks.revision, fun _ => htracks⟩
  · have hrevision := h.revision
    have hnext : (desk.registry.commit m).2.revision = desk.registry.revision + 1 := by
      rw [commit_current htracks.revision]
      exact Nat.mod_eq_of_lt (by simp only [Command.commits] at hcount; omega)
    rw [hafter]
    refine ⟨?_, htracks.size_le h.size, fun other m' hmem => ?_⟩
    · simp only [Command.commits, hnext]
      omega
    · have hold := (h.plans other m' hmem).1
      simp only [hnext]
      exact ⟨by omega, fun heq => absurd heq (by omega)⟩

/-- A step keeps every object. -/
theorem Desk.Sound.evolves {desk : Desk} {count : Nat} (h : desk.Sound count) (command : Command) :
    Evolves desk.registry (desk.perform command).registry := by
  rcases h.perform_cases command with hsame | ⟨operation, m, -, -, hafter⟩ | ⟨index, operation, m, -, -, htracks, hafter⟩
  · rw [hsame]
    exact .refl _
  · rw [hafter]
    exact .refl _
  · rw [hafter]
    exact htracks.evolves

@[simp] theorem commits_cons (command : Command) (commands : List Command) :
    commits (command :: commands) = command.commits + commits commands := by
  simp [commits]

@[simp] theorem commits_append (before after : List Command) : commits (before ++ after) = commits before + commits after := by
  simp [commits]

/-- Steps keep what holds of the desk, and every object. -/
theorem Desk.Sound.performAll {desk : Desk} {count : Nat} (h : desk.Sound count) {commands : List Command}
    (hcount : count + commits commands < 2 ^ 64) :
    (desk.performAll commands).Sound (count + commits commands) ∧
      Evolves desk.registry (desk.performAll commands).registry := by
  induction commands generalizing desk count with
  | nil => exact ⟨h, .refl _⟩
  | cons command commands ih =>
    rw [commits_cons, ← Nat.add_assoc] at hcount ⊢
    obtain ⟨hsound, hevolves⟩ := ih (h.perform command (by omega)) hcount
    exact ⟨hsound, (h.evolves command).trans hevolves⟩

theorem run_append (before after : List Command) : run (before ++ after) = (run before).performAll after :=
  List.foldl_append

/-- What holds after every run with fewer commits than there are revisions. -/
theorem sound_run {commands : List Command} (h : commits commands < 2 ^ 64) : (run commands).Sound (commits commands) := by
  have hsound := (sound_empty.performAll (by rwa [Nat.zero_add])).1
  rwa [Nat.zero_add] at hsound

/-! ## Hits -/

/-- The operations that leave the fingerprint of an object. -/
def Quiet (meaning : ItemLifecycleMeaning) : Prop :=
  meaning = .unknown ∨ meaning = .noClientAction ∨ meaning = .updateRuntimeFlag

/-- The key of an operation. -/
def keyOf (operation : RaceObjectOperation) : RaceObjectKey := ⟨operation.raceEpoch, operation.objectId⟩

/-- The record is of a hit by an operation. -/
structure Fingerprint (operation : RaceObjectOperation) (record : RaceObjectRecord) : Prop where
  phase : record.phase = .hit
  state : record.lastState = operation.state
  token : record.lastTransitionToken = operation.transitionToken
  target : record.lastTargetObjectId = operation.targetObjectId
  cls : record.cls = operation.cls
  owner : ∀ claimed, operation.ownerClaim = some claimed → claimed = record.owner

/-- An operation that is validated is on an object of its class, by its owner where one is claimed. -/
theorem validateExisting_eq_ok {key : RaceObjectKey} {record : RaceObjectRecord} {operation : RaceObjectOperation} :
    validateExisting key record operation = .ok () ↔
      record.cls = operation.cls ∧ ∀ claimed, operation.ownerClaim = some claimed → claimed = record.owner := by
  unfold validateExisting
  by_cases hcls : record.cls = operation.cls
  · rcases operation.ownerClaim with _ | claimed
    · simp [hcls]
    · by_cases howner : claimed = record.owner <;> simp [hcls, howner, Option.filter]
  · simp [hcls]

/-- What a hit puts is of that hit. -/
theorem Tracks.fingerprint {registry : RaceObjectRegistry} {operation : RaceObjectOperation} {m : RaceObjectMutation}
    (h : Tracks registry operation m) (himpact : operation.meaning = .impact) : Fingerprint operation m.next := by
  have hputs := h.puts
  have hvalidated := h.validated
  generalize m.next = next at hputs
  generalize registry.objects.lookup m.key = current at hputs hvalidated
  cases hputs with
  | minted hcurrent hroom hhit => exact ⟨hhit himpact, rfl, rfl, rfl, rfl, fun claimed hclaim => by simp [minted, hclaim]⟩
  | advanced hcurrent hphase hhit =>
    obtain ⟨hcls, howner⟩ := validateExisting_eq_ok.1 (hvalidated _ hcurrent)
    exact ⟨hhit himpact, rfl, rfl, rfl, hcls, howner⟩
  | flagged hcurrent hflag => simp [himpact] at hflag

/-- A hit is suppressed while its fingerprint is at its key. -/
theorem plan_of_fingerprint {registry : RaceObjectRegistry} {operation : RaceObjectOperation} {record : RaceObjectRecord}
    (himpact : operation.meaning = .impact) (hlookup : registry.objects.lookup (keyOf operation) = some record)
    (h : Fingerprint operation record) :
    registry.plan operation = .ok (.suppressDuplicate operation.objectId .hit operation.state .hit) := by
  have hvalid := (validateExisting_eq_ok.2 ⟨h.cls, h.owner⟩ : validateExisting (keyOf operation) record operation = .ok ())
  unfold keyOf at hlookup hvalid
  simp [plan, hlookup, himpact, hvalid, h.phase, planHit, suppressed, h.state, h.token, h.target, Option.filter]

/-- The fingerprint of a hit is at its key, and a plan for the current revision that is on its key only sets the flag. -/
structure Desk.Watches (desk : Desk) (operation : RaceObjectOperation) : Prop where
  fingerprint : ∃ record, desk.registry.objects.lookup (keyOf operation) = some record ∧ Fingerprint operation record
  quiet : ∀ other m, (other, m) ∈ desk.planned → m.expectedRevision = desk.registry.revision → m.key = keyOf operation →
    other.meaning = .updateRuntimeFlag

/-- A flag leaves the fingerprint. -/
theorem Tracks.keeps_fingerprint {registry : RaceObjectRegistry} {hit other : RaceObjectOperation} {m : RaceObjectMutation}
    {record : RaceObjectRecord} (h : Tracks registry other m) (hflag : other.meaning = .updateRuntimeFlag)
    (hlookup : registry.objects.lookup m.key = some record) (hfingerprint : Fingerprint hit record) :
    Fingerprint hit m.next := by
  have hputs := h.puts
  rw [hlookup] at hputs
  generalize m.next = next at hputs
  cases hputs with
  | minted hcurrent => cases hcurrent
  | advanced hcurrent hphase himpact hnoflag => exact absurd hflag hnoflag
  | flagged hcurrent =>
    cases hcurrent
    exact ⟨hfingerprint.phase, hfingerprint.state, hfingerprint.token, hfingerprint.target, hfingerprint.cls,
      hfingerprint.owner⟩

/-- The commit of a hit starts the watch: the plans made before are stale. -/
theorem Desk.Sound.watches {desk : Desk} {count : Nat} (h : desk.Sound count) (hcount : count + 1 < 2 ^ 64)
    {operation : RaceObjectOperation} {m : RaceObjectMutation} (htracks : Tracks desk.registry operation m)
    (himpact : operation.meaning = .impact) :
    Desk.Watches { desk with registry := (desk.registry.commit m).2 } operation := by
  have hrevision := h.revision
  have hnext : (desk.registry.commit m).2.revision = desk.registry.revision + 1 := by
    rw [commit_current htracks.revision]
    exact Nat.mod_eq_of_lt (by omega)
  refine ⟨⟨m.next, ?_, htracks.fingerprint himpact⟩, fun other m' hmem heq => ?_⟩
  · rw [commit_current htracks.revision, keyOf, ← htracks.key]
    exact AList.lookup_insert _
  · have hold := (h.plans other m' hmem).1
    simp only [hnext] at heq
    omega

/-- A step keeps the watch when it plans no operation on the object but quiet ones. -/
theorem Desk.Watches.perform {desk : Desk} {count : Nat} {hit : RaceObjectOperation} (hwatches : desk.Watches hit)
    (h : desk.Sound count) (command : Command) (hcount : count + command.commits < 2 ^ 64)
    (hquiet : ∀ operation, command = .plan operation → keyOf operation = keyOf hit → Quiet operation.meaning) :
    (desk.perform command).Watches hit := by
  rcases h.perform_cases command with hsame | ⟨operation, m, rfl, htracks, hafter⟩ |
    ⟨index, operation, m, rfl, hentry, htracks, hafter⟩
  · rw [hsame]
    exact hwatches
  · rw [hafter]
    refine ⟨hwatches.fingerprint, fun other m' hmem hcurrent hkey => ?_⟩
    rcases List.mem_append.1 hmem with hold | hnew
    · exact hwatches.quiet other m' hold hcurrent hkey
    · simp only [List.mem_singleton, Prod.mk.injEq] at hnew
      obtain ⟨rfl, rfl⟩ := hnew
      rcases hquiet other rfl (htracks.key.symm.trans hkey) with hunknown | hnone | hflag
      · exact absurd hunknown htracks.meaning.1
      · exact absurd hnone htracks.meaning.2
      · exact hflag
  · have hrevision := h.revision
    have hnext : (desk.registry.commit m).2.revision = desk.registry.revision + 1 := by
      rw [commit_current htracks.revision]
      exact Nat.mod_eq_of_lt (by simp only [Command.commits] at hcount; omega)
    obtain ⟨record, hlookup, hfingerprint⟩ := hwatches.fingerprint
    rw [hafter]
    refine ⟨?_, fun other m' hmem heq => ?_⟩
    · rw [commit_current htracks.revision]
      by_cases hkey : keyOf hit = m.key
      · have hflag := hwatches.quiet operation m (List.mem_of_getElem? hentry) htracks.revision hkey.symm
        rw [hkey] at hlookup ⊢
        exact ⟨m.next, AList.lookup_insert _, htracks.keeps_fingerprint hflag hlookup hfingerprint⟩
      · exact ⟨record, (AList.lookup_insert_ne hkey).trans hlookup, hfingerprint⟩
    · have hold := (h.plans other m' hmem).1
      simp only [hnext] at heq
      omega

/-- Steps keep the watch. -/
theorem Desk.Watches.performAll {desk : Desk} {count : Nat} {hit : RaceObjectOperation} (hwatches : desk.Watches hit)
    (h : desk.Sound count) {commands : List Command} (hcount : count + commits commands < 2 ^ 64)
    (hquiet : ∀ operation, Command.plan operation ∈ commands → keyOf operation = keyOf hit → Quiet operation.meaning) :
    (desk.performAll commands).Watches hit := by
  induction commands generalizing desk count with
  | nil => exact hwatches
  | cons command commands ih =>
    rw [commits_cons, ← Nat.add_assoc] at hcount
    have hfirst := hwatches.perform h command (by omega)
      (fun operation heq => hquiet operation (heq ▸ List.mem_cons_self ..))
    exact ih hfirst (h.perform command (by omega)) hcount
      (fun operation hmem => hquiet operation (List.mem_cons_of_mem _ hmem))

/-! ## The lifecycle -/

/-- What every run keeps. -/
structure Lifecycle (commands : List Command) : Prop where
  /-- No more objects are held than the bound. -/
  bounded : (run commands).registry.objects.size ≤ maxRaceObjects
  /-- No object is dropped, its class and owner stay, and its phase is initialized only if it was at every earlier time. -/
  kept : ∀ before after, commands = before ++ after → Evolves (run before).registry (run commands).registry
  /-- A commit of a plan for another revision changes nothing. -/
  stale : ∀ before index after operation m, commands = before ++ .commit index :: after →
    (run before).planned[index]? = some (operation, m) → m.expectedRevision ≠ (run before).registry.revision →
    run (before ++ [.commit index]) = run before
  /-- Only a commit of a respawn takes an object out of the removed phase. -/
  terminal : ∀ before command after, commands = before ++ command :: after → ∀ key record record',
    (run before).registry.objects.lookup key = some record → record.phase = .removed →
    (run (before ++ [command])).registry.objects.lookup key = some record' → record'.phase ≠ .removed →
    ∃ index operation m, command = .commit index ∧ (run before).planned[index]? = some (operation, m) ∧
      operation.meaning = .respawn
  /-- After a hit was committed the identical hit is suppressed, while only quiet operations are planned on the object. -/
  hit : ∀ before index after operation m, commands = before ++ .commit index :: after →
    (run before).planned[index]? = some (operation, m) → operation.meaning = .impact →
    ((run before).registry.commit m).1 = .ok () →
    (∀ other, .plan other ∈ after → keyOf other = keyOf operation → Quiet other.meaning) →
    (run commands).registry.plan operation = .ok (.suppressDuplicate operation.objectId .hit operation.state .hit)

/-- Every run with fewer than 2^64 commits keeps the lifecycle of its objects. -/
theorem lifecycle_run {commands : List Command} (h : commits commands < 2 ^ 64) : Lifecycle commands := by
  refine ⟨(sound_run h).size, ?_, ?_, ?_, ?_⟩
  · rintro before after rfl
    rw [commits_append] at h
    rw [run_append]
    exact ((sound_run (show commits before < 2 ^ 64 by omega)).performAll h).2
  · rintro before index after operation m rfl hentry hstale
    rw [run_append]
    change (run before).perform (.commit index) = run before
    simp only [Desk.perform, hentry, commit_stale hstale]
  · rintro before command after rfl key record record' hlookup hremoved hafter hphase
    rw [commits_append] at h
    rw [run_append] at hafter
    change ((run before).perform command).registry.objects.lookup key = some record' at hafter
    have hsound := sound_run (show commits before < 2 ^ 64 by omega)
    have hkept : ∀ desk : Desk, desk.registry = (run before).registry → desk.registry.objects.lookup key = some record' →
        False := by
      intro desk heq hdesk
      rw [heq, hlookup, Option.some.injEq] at hdesk
      exact hphase (hdesk ▸ hremoved)
    rcases hsound.perform_cases command with hsame | ⟨operation, m, -, -, hplanned⟩ |
      ⟨index, operation, m, rfl, hentry, htracks, hcommitted⟩
    · exact absurd hafter fun hdesk => hkept _ (by rw [hsame]) hdesk
    · exact absurd hafter fun hdesk => hkept _ (by rw [hplanned]) hdesk
    · refine ⟨index, operation, m, rfl, hentry, ?_⟩
      rw [hcommitted, commit_current htracks.revision] at hafter
      by_cases hkey : key = m.key
      · exact htracks.terminal record (hkey ▸ hlookup) hremoved
      · exact absurd ((AList.lookup_insert_ne hkey).symm.trans hafter) fun hdesk => hkept (run before) rfl hdesk
  · rintro before index after operation m rfl hentry himpact hcommitted hquiet
    rw [commits_append, commits_cons] at h
    have hsound := sound_run (show commits before < 2 ^ 64 by omega)
    have hcurrent : m.expectedRevision = (run before).registry.revision := by
      by_contra hstale
      rw [commit_stale hstale] at hcommitted
      cases hcommitted
    have htracks := (hsound.plans operation m (List.mem_of_getElem? hentry)).2 hcurrent
    have hstep : (run before).perform (.commit index) =
        { run before with registry := ((run before).registry.commit m).2 } := by
      simp only [Desk.perform, hentry]
    have hcommit : Command.commits (.commit index) = 1 := rfl
    have hwatches := hsound.watches (by omega) htracks himpact
    rw [← hstep] at hwatches
    have hnext := hsound.perform (.commit index) (by omega)
    have hlast := hwatches.performAll hnext (show _ + commits after < 2 ^ 64 by omega) hquiet
    obtain ⟨record, hlookup, hfingerprint⟩ := hlast.fingerprint
    rw [run_append]
    exact plan_of_fingerprint himpact hlookup hfingerprint

/-- An object is hit before it was seen, and its flag is set. -/
def sampleHit : RaceObjectOperation :=
  ⟨1, ⟨7, 8⟩, 66, 2, .impact, .producerAndConsumer, some 3, none, some 5, none, ⟨15, 1, 2⟩, none⟩

theorem lifecycle_run_sample :
    (run [.plan sampleHit, .commit 0, .plan { sampleHit with meaning := .updateRuntimeFlag, variant := some 1 },
      .commit 1]).registry.plan sampleHit = .ok (.suppressDuplicate 66 .hit 2 .hit) := by
  refine (lifecycle_run (by decide)).hit [.plan sampleHit] 0 _ sampleHit ⟨0, ⟨1, 66⟩, minted sampleHit .hit⟩ rfl
    (by decide +kernel) rfl (by decide +kernel) ?_
  intro other hother _
  simp only [List.mem_cons, Command.plan.injEq, reduceCtorEq, List.not_mem_nil, or_false] at hother
  subst hother
  exact .inr (.inr rfl)

end RaceObjectRegistry
end P5136
