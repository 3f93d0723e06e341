import Mathlib.Data.List.Perm.Subperm
import P5136.Profile.EquippedParts

/-!
# Floater sockets

A kart with a socket has three codes and two protections that keep the code of one slot each through a number of resets. Activating
a socket, setting its codes, applying a kit, protecting a slot and resetting each read the tune file, change the record of one kart
and write the file back, after the record passed the checks of the loader.
-/

namespace P5136

open Checks Keyed List

/-! ## Codes -/

/-- What holds of all codes of a list is decided code by code. -/
local instance decidableCodes (codes : List Int16) (p : Int16 → Prop) [DecidablePred p] : Decidable (∀ code ∈ codes, p code) :=
  decidableBAll p codes

/-- `SPEED_FLOATER_CODES`. -/
def speedFloaterCodes : List Int16 := [103, 203, 303, 403, 503, 603, 703, 803, 903]

/-- `ITEM_FLOATER_CODES`. -/
def itemFloaterCodes : List Int16 :=
  [10103, 10203, 10303, 10401, 10503, 10603, 10703, 10803, 10901, 11001, 11103, 11201, 11301, 11403, 11501, 11601, 11701, 11803,
    11903, 12003]

/-- The codes that selector 5 installs (`BLACK_FLOATER_CODES`). -/
def blackFloaterCodes : Int16 × Int16 × Int16 := (603, 703, 903)

def speedFloaterKindAndGrade (code : Int16) : Option (Int16 × Int16) :=
  let kind := code / 100
  let grade := code % 100
  if (1 ≤ kind ∧ kind ≤ 9) ∧ 1 ≤ grade ∧ grade ≤ 3 then some (kind, grade) else none

def isKnownFloaterCode (code : Int16) : Bool :=
  code == 0 || (speedFloaterKindAndGrade code).isSome || itemFloaterCodes.contains code

def floaterCodePool (selector : Int16) : Option (List Int16) :=
  if selector ≤ 0 then none
  else if selector = 6 then some speedFloaterCodes
  else if selector = 4 then some itemFloaterCodes
  else some (speedFloaterCodes ++ itemFloaterCodes)

/-- The order that a shuffle leaves codes in. -/
structure Shuffle where
  order : List Int16 → List Int16
  perm : ∀ codes, (order codes).Perm codes

/-! ## Records -/

structure TuneExcRecord where
  id : Int16
  serial : Int16
  tune1 : Int16
  tune2 : Int16
  tune3 : Int16
  slot1 : Int16
  count1 : Int16
  slot2 : Int16
  count2 : Int16
deriving DecidableEq

/-- `FloaterResetOutcome`: the record before and after. -/
structure FloaterResetOutcome where
  before : TuneExcRecord
  after : TuneExcRecord
deriving DecidableEq

structure TuneState where
  id : Int16
  serial : Int16
  tune1 : Int16
  tune2 : Int16
  tune3 : Int16
  slot1 : Int16
  count1 : Int16
  slot2 : Int16
  count2 : Int16
deriving DecidableEq

namespace TuneState

/-- The kart of a record as it is stored. -/
def key (self : TuneState) : KartKey := (self.id, self.serial)

def new (k : KartKey) : TuneState := ⟨k.1, k.2, 0, 0, 0, -1, 0, -1, 0⟩

def asException (self : TuneState) : TuneExcRecord :=
  ⟨self.id, normalizeKartSerial self.id self.serial, self.tune1, self.tune2, self.tune3, self.slot1, self.count1, self.slot2,
    self.count2⟩

/-- The serial of a record is normalized. -/
def normalized (self : TuneState) : TuneState := { self with serial := normalizeKartSerial self.id self.serial }

/-- The three codes. -/
def codes (self : TuneState) : List Int16 := [self.tune1, self.tune2, self.tune3]

/-- The code of a slot, zero outside the three. -/
def code (self : TuneState) (slot : Int16) : Int16 :=
  if slot = 0 then self.tune1 else if slot = 1 then self.tune2 else if slot = 2 then self.tune3 else 0

/-- A slot is actively protected. -/
def Protects (self : TuneState) (slot : Int16) : Prop :=
  (0 < self.count1 ∧ self.slot1 = slot) ∨ (0 < self.count2 ∧ self.slot2 = slot)

instance (self : TuneState) (slot : Int16) : Decidable (self.Protects slot) := inferInstanceAs (Decidable (_ ∨ _))

end TuneState

/-! ## The loader -/

/-- The codes are known, and no code stands twice; `seen` are those before. -/
def checkFloaterCodes (seen : List Int16) : List Int16 → Except EquipmentStateError Unit
  | [] => .ok ()
  | code :: rest => do
    ensure (isKnownFloaterCode code = true) (.invalidFloaterCode code)
    if code ≠ 0 then do
      ensure (code ∉ seen) (.duplicateFloaterCode code)
      checkFloaterCodes (seen ++ [code]) rest
    else checkFloaterCodes seen rest

/-- A protection is of one of the slots, or of none and has no count left. -/
def checkFloaterProtection (slot count maximum : Int16) : Except EquipmentStateError Unit := do
  ensure (-1 ≤ slot ∧ slot ≤ 2) (.invalidFloaterProtectionSlot slot)
  ensure (0 ≤ count ∧ count ≤ maximum) (.invalidFloaterProtectionCount count)
  ensure (¬ (slot = -1 ∧ count ≠ 0)) (.invalidFloaterProtectionCount count)

def validateTuneState (state : TuneState) : Except EquipmentStateError Unit := do
  ensure (¬ state.id ≤ 0) (.invalidFloaterKart state.id)
  checkFloaterCodes [] state.codes
  checkFloaterProtection state.slot1 state.count1 4
  checkFloaterProtection state.slot2 state.count2 3
  ensure (¬ (0 < state.count1 ∧ 0 < state.count2 ∧ state.slot1 = state.slot2))
    (.duplicateFloaterProtectionSlot state.slot1)

def parseTuneStates (file : Option (Sidecar TuneState)) : Except EquipmentStateError (List TuneState) := do
  let records ← Sidecar.read "Floater" file
  let states := deduplicateLastByKey (records.map TuneState.normalized) TuneState.key
  all validateTuneState states
  .ok states

/-! ## The operations -/

/-- The record that is changed: the one of the kart, or a new one when it may be inserted and the list has room. -/
def findFloaterState (insertIfMissing : Bool) (k : KartKey) (states : List TuneState) : Except EquipmentStateError TuneState :=
  if insertIfMissing then findOrInsert "Floater" TuneState.key k (.new k) states
  else orElse (lookup TuneState.key k states) (.missingFloaterState k.1 k.2)

/-- `mutate_tune_state_capability`, given the length of the text of the records; the record before the change is what a reset
reports besides. -/
def mutateTuneState (textLength : List TuneState → Nat) (file : Option (Sidecar TuneState)) (kartId kartSerial : Int16)
    (insertIfMissing : Bool) (mutation : TuneState → Except EquipmentStateError TuneState) :
    Except EquipmentStateError (FloaterResetOutcome × Sidecar TuneState) := do
  ensure (¬ kartId ≤ 0) (.invalidFloaterKart kartId)
  let k := (kartId, normalizeKartSerial kartId kartSerial)
  let states ← parseTuneStates file
  let state ← findFloaterState insertIfMissing k states
  let next ← mutation state
  validateTuneState next
  let written ← Sidecar.write textLength (put TuneState.key k next states)
  .ok (⟨state.asException, next.asException⟩, written)

/-- The mutation of `set_floater_codes_capability`. -/
def setFloaterCodes (codes : Int16 × Int16 × Int16) (state : TuneState) : TuneState :=
  { state with tune1 := codes.1, tune2 := codes.2.1, tune3 := codes.2.2 }

/-- An empty slot takes the last of the available codes. -/
def fillSlot (selector : Int16) (slot : Int16) (available : List Int16) : Except EquipmentStateError (Int16 × List Int16) :=
  if slot = 0 then do
    let code ← orElse available.getLast? (.floaterCodePoolExhausted selector)
    .ok (code, available.dropLast)
  else .ok (slot, available)

/-- The mutation of `apply_floater_tune_capability`. -/
def applyFloaterTune (selector : Int16) (shuffle : Shuffle) (state : TuneState) : Except EquipmentStateError TuneState :=
  if selector = 5 then .ok (setFloaterCodes blackFloaterCodes state)
  else if ∀ code ∈ state.codes, code ≠ 0 then .error .floaterSlotsFull
  else do
    let pool ← orElse (floaterCodePool selector) (.invalidFloaterSelector selector)
    let available := shuffle.order (pool.filter (fun code => decide (code ∉ state.codes)))
    let first ← fillSlot selector state.tune1 available
    let second ← fillSlot selector state.tune2 first.2
    let third ← fillSlot selector state.tune3 second.2
    .ok { state with tune1 := first.1, tune2 := second.1, tune3 := third.1 }

/-- The mutation of `protect_floater_slot_capability`. -/
def protectFloaterSlot (kind slot : Int16) (state : TuneState) : Except EquipmentStateError TuneState := do
  ensure (state.code slot ≠ 0) (.emptyFloaterProtectionSlot slot)
  ensure (¬ state.Protects slot) (.duplicateFloaterProtectionSlot slot)
  if kind = 49 then .ok { state with slot1 := slot, count1 := 4 }
  else if kind = 53 then .ok { state with slot2 := slot, count2 := 3 }
  else .error (.invalidFloaterProtectionKind kind)

/-- A protection at a reset: the slot it names afterwards, its count, and the slots that are protected. -/
structure Consumed where
  slot : Int16
  count : Int16
  kept : List Bool

def consumeFloaterProtection (slot count : Int16) (kept : List Bool) : Consumed :=
  if count ≤ 0 then ⟨slot, count, kept⟩
  else ⟨slot, count - 1, if 0 ≤ slot then kept.set slot.toInt.toNat true else kept⟩

/-- A protection without a count is cleared, any other is consumed. -/
def expireFloaterProtection (slot count : Int16) (kept : List Bool) : Consumed :=
  if count = 0 then ⟨-1, count, kept⟩ else consumeFloaterProtection slot count kept

/-- The code of a slot after a reset. -/
def keptCode (kept : List Bool) (index : Nat) (code : Int16) : Int16 := if kept[index]?.getD false then code else 0

/-- The mutation of `reset_floater_socket_capability`. -/
def resetFloaterSocket (state : TuneState) : TuneState :=
  let first := expireFloaterProtection state.slot1 state.count1 [false, false, false]
  let second := expireFloaterProtection state.slot2 state.count2 first.kept
  { state with
    slot1 := first.slot, count1 := first.count, slot2 := second.slot, count2 := second.count
    tune1 := keptCode second.kept 0 state.tune1
    tune2 := keptCode second.kept 1 state.tune2
    tune3 := keptCode second.kept 2 state.tune3 }

/-- The operations on a socket. -/
inductive FloaterOperation where
  | activate
  | setCodes (codes : Int16 × Int16 × Int16)
  | applyKit (selector : Int16) (shuffle : Shuffle)
  | protect (kind slot : Int16)
  | reset

/-- An operation on one kart. -/
structure FloaterRequest where
  kartId : Int16
  kartSerial : Int16
  operation : FloaterOperation

namespace FloaterRequest

/-- The kart of a request, its serial normalized. -/
def key (self : FloaterRequest) : KartKey := (self.kartId, normalizeKartSerial self.kartId self.kartSerial)

/-- `activate_floater_socket_capability`, `set_floater_codes_capability`, `apply_floater_tune_capability`,
`protect_floater_slot_capability` and `reset_floater_socket_capability`. -/
def perform (textLength : List TuneState → Nat) (self : FloaterRequest) (file : Option (Sidecar TuneState)) :
    Except EquipmentStateError (FloaterResetOutcome × Sidecar TuneState) :=
  match self.operation with
  | .activate => mutateTuneState textLength file self.kartId self.kartSerial true .ok
  | .setCodes codes => mutateTuneState textLength file self.kartId self.kartSerial true (fun state => .ok (setFloaterCodes codes state))
  | .applyKit selector shuffle => do
    ensure (4 ≤ selector ∧ selector ≤ 6) (.invalidFloaterSelector selector)
    mutateTuneState textLength file self.kartId self.kartSerial false (applyFloaterTune selector shuffle)
  | .protect kind slot => do
    ensure (0 ≤ slot ∧ slot ≤ 2) (.invalidFloaterProtectionSlot slot)
    mutateTuneState textLength file self.kartId self.kartSerial false (protectFloaterSlot kind slot)
  | .reset => mutateTuneState textLength file self.kartId self.kartSerial false (fun state => .ok (resetFloaterSocket state))

/-- The file after a request: the one that was written, or the one from before when the request failed. -/
def fileAfter (textLength : List TuneState → Nat) (file : Option (Sidecar TuneState)) (self : FloaterRequest) :
    Option (Sidecar TuneState) :=
  match self.perform textLength file with
  | .ok (_, written) => some written
  | .error _ => file

end FloaterRequest

/-- The file after requests. -/
def floatersAfter (textLength : List TuneState → Nat) (file : Option (Sidecar TuneState)) (requests : List FloaterRequest) :
    Option (Sidecar TuneState) :=
  requests.foldl (FloaterRequest.fileAfter textLength) file

/-! ## What the loader accepts -/

/-- A protection is of one of the slots, or of none and has no count left. -/
def ProtectionValid (slot count maximum : Int16) : Prop :=
  (-1 ≤ slot ∧ slot ≤ 2) ∧ (0 ≤ count ∧ count ≤ maximum) ∧ ¬ (slot = -1 ∧ count ≠ 0)

/-- A record that the loader accepts: its codes are known and distinct, and so are the slots that are actively protected. -/
structure TuneState.Valid (state : TuneState) : Prop where
  id : ¬ state.id ≤ 0
  known : ∀ code ∈ state.codes, isKnownFloaterCode code = true
  distinct : (state.codes.filter (fun code => decide (code ≠ 0))).Nodup
  first : ProtectionValid state.slot1 state.count1 4
  second : ProtectionValid state.slot2 state.count2 3
  active : ¬ (0 < state.count1 ∧ 0 < state.count2 ∧ state.slot1 = state.slot2)

theorem checkFloaterCodes_eq_ok (codes : List Int16) {seen : List Int16} (hseen : seen.Nodup) :
    checkFloaterCodes seen codes = .ok () ↔
      (∀ code ∈ codes, isKnownFloaterCode code = true) ∧ (seen ++ codes.filter (fun code => decide (code ≠ 0))).Nodup := by
  induction codes generalizing seen with
  | nil => simpa [checkFloaterCodes] using hseen
  | cons code codes ih =>
    unfold checkFloaterCodes
    rw [bind_eq_ok]
    simp only [ensure_eq_ok, exists_const, forall_mem_cons, and_assoc, and_congr_right_iff]
    intro _
    by_cases hzero : code = 0
    · rw [if_neg (by simpa using hzero), ih hseen, filter_cons_of_neg (by simpa using hzero)]
    · rw [if_pos hzero, bind_eq_ok, filter_cons_of_pos (by simpa using hzero)]
      simp only [ensure_eq_ok, exists_const]
      by_cases hmem : code ∈ seen
      · simp only [hmem, not_true_eq_false, false_and, false_iff, not_and]
        intro _ hnodup
        rw [nodup_append] at hnodup
        exact hnodup.2.2 code hmem code (mem_cons_self ..) rfl
      · have hnext : (seen ++ [code]).Nodup := by
          rw [nodup_append]
          refine ⟨hseen, nodup_singleton code, ?_⟩
          intro x hx y hy hxy
          rw [mem_singleton] at hy
          exact hmem (hy ▸ hxy ▸ hx)
        rw [ih hnext, append_assoc, singleton_append]
        simp only [hmem, not_false_eq_true, true_and]

theorem checkFloaterProtection_eq_ok {slot count maximum : Int16} {x : Unit} :
    checkFloaterProtection slot count maximum = .ok x ↔ ProtectionValid slot count maximum := by
  simp only [checkFloaterProtection, bind_eq_ok, ensure_eq_ok, exists_const, ProtectionValid]

/-- The loader's checks are its acceptance. -/
theorem validateTuneState_eq_ok {state : TuneState} : validateTuneState state = .ok () ↔ state.Valid := by
  have hcodes := checkFloaterCodes_eq_ok state.codes nodup_nil
  rw [nil_append] at hcodes
  simp only [validateTuneState, bind_eq_ok, ensure_eq_ok, exists_const, hcodes, checkFloaterProtection_eq_ok]
  constructor
  · rintro ⟨hid, ⟨hknown, hdistinct⟩, hfirst, hsecond, hactive⟩
    exact ⟨hid, hknown, hdistinct, hfirst, hsecond, hactive⟩
  · intro h
    exact ⟨h.id, ⟨h.known, h.distinct⟩, h.first, h.second, h.active⟩

/-- A tune file that the loader accepts: in order, bounded, and of valid records. -/
structure AcceptedTunes (states : List TuneState) : Prop where
  canonical : Canonical TuneState.normalized TuneState.key states
  length : states.length ≤ maxEquipmentRecords
  valid : ∀ state ∈ states, state.Valid

theorem TuneState.normalized_normalized (self : TuneState) : self.normalized.normalized = self.normalized := by
  simp [normalized]

theorem of_parseTuneStates {file : Option (Sidecar TuneState)} {states : List TuneState}
    (h : parseTuneStates file = .ok states) : AcceptedTunes states := by
  obtain ⟨records, hread, hrest⟩ := bind_eq_ok.1 h
  obtain ⟨_, hvalid, hrest⟩ := bind_eq_ok.1 hrest
  obtain rfl := Except.ok.inj hrest
  rw [all_eq_ok] at hvalid
  refine ⟨Canonical.of_deduplicate TuneState.normalized_normalized records, ?_, ?_⟩
  · have hlength := length_collect_le TuneState.key [] (records.map TuneState.normalized)
    rw [length_nil, Nat.zero_add, length_map] at hlength
    exact Nat.le_trans hlength (Sidecar.length_of_read hread)
  · intro state hstate
    exact validateTuneState_eq_ok.1 (hvalid state hstate)

/-- An accepted file is read as it is. -/
theorem parseTuneStates_of_accepted {file : Sidecar TuneState} {states : List TuneState} (h : AcceptedTunes states)
    (hread : Sidecar.read "Floater" (some file) = .ok states) : parseTuneStates (some file) = .ok states := by
  refine bind_eq_ok.2 ⟨states, hread, ?_⟩
  simp only [h.canonical.deduplicate_eq]
  refine bind_eq_ok.2 ⟨(), all_eq_ok.2 (fun state hstate => ?_), rfl⟩
  exact validateTuneState_eq_ok.2 (h.valid state hstate)

/-! ## One request -/

/-- The mutation of an operation. -/
def FloaterOperation.mutation : FloaterOperation → TuneState → Except EquipmentStateError TuneState
  | .activate => .ok
  | .setCodes codes => fun state => .ok (setFloaterCodes codes state)
  | .applyKit selector shuffle => applyFloaterTune selector shuffle
  | .protect kind slot => protectFloaterSlot kind slot
  | .reset => fun state => .ok (resetFloaterSocket state)

/-- Whether an operation makes a socket for a kart without one. -/
def FloaterOperation.inserts : FloaterOperation → Bool
  | .activate => true
  | .setCodes _ => true
  | _ => false

/-- What the arguments of an operation are checked for. -/
def FloaterOperation.Admitted : FloaterOperation → Prop
  | .applyKit selector _ => 4 ≤ selector ∧ selector ≤ 6
  | .protect _ slot => 0 ≤ slot ∧ slot ≤ 2
  | _ => True

/-- A request is admitted and mutates the record of its kart. -/
theorem FloaterRequest.perform_eq_ok {textLength : List TuneState → Nat} {file : Option (Sidecar TuneState)}
    {self : FloaterRequest} {result : FloaterResetOutcome × Sidecar TuneState} :
    self.perform textLength file = .ok result ↔ self.operation.Admitted ∧
      mutateTuneState textLength file self.kartId self.kartSerial self.operation.inserts self.operation.mutation = .ok result := by
  unfold perform
  rcases self.operation with _ | codes | ⟨selector, shuffle⟩ | ⟨kind, slot⟩ | _
  · exact ⟨fun h => ⟨trivial, h⟩, And.right⟩
  · exact ⟨fun h => ⟨trivial, h⟩, And.right⟩
  · simp only [bind_eq_ok, ensure_eq_ok, exists_const]
    rfl
  · simp only [bind_eq_ok, ensure_eq_ok, exists_const]
    rfl
  · exact ⟨fun h => ⟨trivial, h⟩, And.right⟩

/-- An operation keeps the kart of a record. -/
theorem FloaterOperation.key_mutation {operation : FloaterOperation} {state next : TuneState}
    (h : operation.mutation state = .ok next) : next.key = state.key := by
  rcases operation with _ | codes | ⟨selector, shuffle⟩ | ⟨kind, slot⟩ | _
  · obtain rfl := Except.ok.inj h
    rfl
  · obtain rfl := Except.ok.inj h
    rfl
  · change applyFloaterTune selector shuffle state = .ok next at h
    unfold applyFloaterTune at h
    by_cases h5 : selector = 5
    · rw [if_pos h5] at h
      obtain rfl := Except.ok.inj h
      rfl
    · rw [if_neg h5] at h
      by_cases hfull : ∀ code ∈ state.codes, code ≠ 0
      · rw [if_pos hfull] at h
        exact absurd h (by simp)
      · rw [if_neg hfull] at h
        simp only [bind_eq_ok] at h
        obtain ⟨pool, -, first, -, second, -, third, -, hnext⟩ := h
        obtain rfl := Except.ok.inj hnext
        rfl
  · change protectFloaterSlot kind slot state = .ok next at h
    simp only [protectFloaterSlot, bind_eq_ok] at h
    obtain ⟨_, -, _, -, h⟩ := h
    by_cases h49 : kind = 49
    · rw [if_pos h49] at h
      obtain rfl := Except.ok.inj h
      rfl
    · rw [if_neg h49] at h
      by_cases h53 : kind = 53
      · rw [if_pos h53] at h
        obtain rfl := Except.ok.inj h
        rfl
      · rw [if_neg h53] at h
        exact absurd h (by simp)
  · obtain rfl := Except.ok.inj h
    rfl

/-- The record that is changed is the one of the kart, or a new one of an operation that inserts. -/
theorem of_findFloaterState {insertIfMissing : Bool} {k : KartKey} {states : List TuneState} {state : TuneState}
    (h : findFloaterState insertIfMissing k states = .ok state) :
    lookup TuneState.key k states = some state ∨
      insertIfMissing = true ∧ lookup TuneState.key k states = none ∧ state = .new k := by
  unfold findFloaterState at h
  by_cases hinsert : insertIfMissing = true
  · rw [if_pos hinsert] at h
    have heq := eq_of_findOrInsert h
    rcases hfind : lookup TuneState.key k states with _ | found
    · rw [hfind] at heq
      exact Or.inr ⟨hinsert, rfl, heq⟩
    · rw [hfind] at heq
      exact Or.inl (congrArg some heq.symm)
  · rw [if_neg hinsert, orElse_eq_ok] at h
    exact Or.inl h

section Requests

variable {textLength : List TuneState → Nat} {file : Option (Sidecar TuneState)} {states : List TuneState}
  {request : FloaterRequest}

/-- What a successful request does to an accepted file. -/
theorem FloaterRequest.of_perform {outcome : FloaterResetOutcome} {written : Sidecar TuneState}
    (hfile : parseTuneStates file = .ok states) (h : request.perform textLength file = .ok (outcome, written)) :
    request.operation.Admitted ∧ ∃ state next,
      (lookup TuneState.key request.key states = some state ∨
        request.operation.inserts = true ∧ lookup TuneState.key request.key states = none ∧ state = .new request.key) ∧
      request.operation.mutation state = .ok next ∧ next.key = request.key ∧ next.Valid ∧
      outcome = ⟨state.asException, next.asException⟩ ∧
      written.records = put TuneState.key request.key next states ∧
      parseTuneStates (some written) = .ok (put TuneState.key request.key next states) := by
  obtain ⟨hadmitted, h⟩ := perform_eq_ok.1 h
  refine ⟨hadmitted, ?_⟩
  obtain ⟨_, -, h⟩ := bind_eq_ok.1 h
  obtain ⟨states', hparse, h⟩ := bind_eq_ok.1 h
  obtain rfl := Except.ok.inj (hfile.symm.trans hparse)
  obtain ⟨state, hfind, h⟩ := bind_eq_ok.1 h
  obtain ⟨next, hmutation, h⟩ := bind_eq_ok.1 h
  obtain ⟨_, hvalidate, h⟩ := bind_eq_ok.1 h
  obtain ⟨written', hwrite, h⟩ := bind_eq_ok.1 h
  obtain ⟨rfl, rfl⟩ := Prod.mk.inj (Except.ok.inj h)
  have haccepted := of_parseTuneStates hfile
  have hfound := of_findFloaterState hfind
  have hstatekey : state.key = request.key := by
    rcases hfound with hlookup | ⟨-, -, rfl⟩
    · exact key_of_lookup _ hlookup
    · rfl
  have hkey : next.key = request.key := (FloaterOperation.key_mutation hmutation).trans hstatekey
  have hvalid := validateTuneState_eq_ok.1 hvalidate
  have hnormalized : next.normalized = next := by
    obtain ⟨hid, hserial⟩ := Prod.mk.inj hkey
    have hsame : normalizeKartSerial next.id next.serial = next.serial := by
      rw [hserial, hid, normalizeKartSerial_idem]
    rw [TuneState.normalized, hsame]
  have hroom : (put TuneState.key request.key next states).length ≤ maxEquipmentRecords := by
    unfold findFloaterState at hfind
    by_cases hinsert : request.operation.inserts = true
    · rw [if_pos hinsert] at hfind
      exact length_put_of_findOrInsert hfind haccepted.length hkey
    · rw [if_neg hinsert, orElse_eq_ok] at hfind
      have hmem : request.key ∈ states.map TuneState.key :=
        mem_map.2 ⟨state, mem_of_lookup _ hfind, hstatekey⟩
      rw [length_put _ hkey, if_pos hmem]
      exact haccepted.length
  obtain ⟨hrecords, hread⟩ := Sidecar.of_write "Floater" hwrite hroom
  refine ⟨state, next, hfound, hmutation, hkey, hvalid, rfl, hrecords, parseTuneStates_of_accepted ⟨?_, hroom, ?_⟩ hread⟩
  · exact haccepted.canonical.put hkey hnormalized
  · intro record hrecord
    rcases mem_put TuneState.key hrecord with rfl | hrecord
    · exact hvalid
    · exact haccepted.valid record hrecord

variable (textLength request) in
/-- A request keeps the file accepted. -/
theorem FloaterRequest.parse_fileAfter (hfile : parseTuneStates file = .ok states) :
    ∃ states', parseTuneStates (request.fileAfter textLength file) = .ok states' := by
  unfold fileAfter
  rcases hperform : request.perform textLength file with error | ⟨outcome, written⟩
  · exact ⟨states, hfile⟩
  · obtain ⟨-, state, next, -, -, -, -, -, -, hparse⟩ := of_perform hfile hperform
    exact ⟨_, hparse⟩

variable (textLength) in
/-- A run keeps the file accepted. -/
theorem parse_floatersAfter (requests : List FloaterRequest) (hfile : parseTuneStates file = .ok states) :
    ∃ states', parseTuneStates (floatersAfter textLength file requests) = .ok states' := by
  induction requests generalizing file states with
  | nil => exact ⟨states, hfile⟩
  | cons request rest ih =>
    obtain ⟨states', hparse⟩ := FloaterRequest.parse_fileAfter textLength request hfile
    exact ih hparse

end Requests

/-! ## A kit -/

/-- A slot and the codes that are left after it was filled: a slot with a code keeps it, and one without takes an available one. -/
structure Filled (slot : Int16) (available : List Int16) (code : Int16) (rest : List Int16) : Prop where
  code : (slot ≠ 0 ∧ code = slot) ∨ (slot = 0 ∧ code ∈ available ∧ code ∉ rest)
  subset : ∀ other ∈ rest, other ∈ available
  nodup : rest.Nodup
  length : available.length ≤ rest.length + 1

/-- A slot is filled as long as codes are available. -/
theorem exists_filled (selector slot : Int16) {available : List Int16} (hnodup : available.Nodup)
    (hlength : 1 ≤ available.length) :
    ∃ code rest, fillSlot selector slot available = .ok (code, rest) ∧ Filled slot available code rest := by
  unfold fillSlot
  by_cases hslot : slot = 0
  · rcases eq_nil_or_concat available with hnil | ⟨rest, code, rfl⟩
    · rw [hnil] at hlength
      exact absurd hlength (by simp)
    · rw [concat_eq_append] at hnodup hlength ⊢
      rw [if_pos hslot, getLast?_append, dropLast_concat]
      rw [nodup_append] at hnodup
      refine ⟨code, rest, rfl, Or.inr ⟨hslot, by simp, ?_⟩, ?_, hnodup.1, by simp⟩
      · intro hmem
        exact hnodup.2.2 code hmem code (by simp) rfl
      · intro other hother
        exact mem_append_left _ hother
  · rw [if_neg hslot]
    exact ⟨slot, available, rfl, Or.inl ⟨hslot, rfl⟩, fun _ h => h, hnodup, Nat.le_succ _⟩

/-- A filled slot has a code. -/
theorem Filled.ne_zero {slot code : Int16} {available rest : List Int16} (h : Filled slot available code rest)
    (hnew : ∀ other ∈ available, other ≠ 0) : code ≠ 0 := by
  rcases h.code with ⟨hslot, rfl⟩ | ⟨-, hmem, -⟩
  · exact hslot
  · exact hnew code hmem

/-- A filled slot differs from one that is filled after it. -/
theorem Filled.ne {slot code : Int16} {available rest : List Int16} (h : Filled slot available code rest)
    {slot' code' : Int16} (hnew : ∀ other ∈ available, other ≠ slot ∧ other ≠ slot')
    (hslots : slot ≠ 0 → slot' ≠ 0 → slot ≠ slot') (h' : (slot' ≠ 0 ∧ code' = slot') ∨ (slot' = 0 ∧ code' ∈ rest)) :
    code ≠ code' := by
  rcases h.code with ⟨hslot, rfl⟩ | ⟨-, hmem, hnot⟩ <;> rcases h' with ⟨hslot', rfl⟩ | ⟨-, hmem'⟩
  · exact hslots hslot hslot'
  · exact fun heq => (hnew code' (h.subset code' hmem')).1 heq.symm
  · exact (hnew code hmem).2
  · exact fun heq => hnot (heq ▸ hmem')

/-- The pool of a kit: known codes, each once, and more than three after those of three slots are taken out. -/
theorem floaterCodePool_spec {selector : Int16} (h : selector = 4 ∨ selector = 6) :
    ∃ pool, floaterCodePool selector = some pool ∧ pool.Nodup ∧ 9 ≤ pool.length ∧
      ∀ code ∈ pool, isKnownFloaterCode code = true ∧ code ≠ 0 := by
  rcases h with rfl | rfl
  · exact ⟨itemFloaterCodes, rfl, by decide, by decide, by decide⟩
  · exact ⟨speedFloaterCodes, rfl, by decide, by decide, by decide⟩

/-- What a shuffled pool has after the codes of three slots are taken out. -/
theorem of_shuffled {pool codes : List Int16} (shuffle : Shuffle) (hnodup : pool.Nodup) (hpool : 9 ≤ pool.length)
    (hcodes : codes.length = 3) :
    let available := shuffle.order (pool.filter (fun code => decide (code ∉ codes)))
    available.Nodup ∧ 3 ≤ available.length ∧ ∀ code ∈ available, code ∈ pool ∧ code ∉ codes := by
  intro available
  have hperm : available.Perm (pool.filter (fun code => decide (code ∉ codes))) := shuffle.perm _
  have hused : (pool.filter (fun code => decide (code ∈ codes))).length ≤ 3 := by
    rw [← hcodes]
    refine (subperm_of_subset (hnodup.filter _) ?_).length_le
    intro code hcode
    simpa using (mem_filter.1 hcode).2
  have hsplit : pool.length = (pool.filter (fun code => decide (code ∈ codes))).length +
      (pool.filter (fun code => decide (code ∉ codes))).length := by
    rw [length_eq_length_filter_add (fun code => decide (code ∈ codes))]
    simp
  refine ⟨hperm.nodup_iff.2 (hnodup.filter _), ?_, ?_⟩
  · rw [hperm.length_eq]
    omega
  · intro code hcode
    simpa using (hperm.mem_iff.1 hcode)

/-- The codes of a record are replaced by known and distinct ones. -/
theorem TuneState.Valid.replaceCodes {state : TuneState} (h : state.Valid) {a b c : Int16}
    (hknown : ∀ code ∈ [a, b, c], isKnownFloaterCode code = true) (hdistinct : [a, b, c].Nodup) :
    (setFloaterCodes (a, b, c) state).Valid :=
  ⟨h.id, hknown, hdistinct.filter _, h.first, h.second, h.active⟩

/-- A kit that does not find the slots full leaves a valid record with every slot filled, and the codes that it had, but for the
black kit that installs its own. -/
theorem applyFloaterTune_spec {selector : Int16} (shuffle : Shuffle) {state : TuneState} (hvalid : state.Valid)
    (hselector : 4 ≤ selector ∧ selector ≤ 6) :
    (selector ≠ 5 ∧ (∀ code ∈ state.codes, code ≠ 0) ∧
        applyFloaterTune selector shuffle state = .error .floaterSlotsFull) ∨
      ∃ next, applyFloaterTune selector shuffle state = .ok next ∧ next.Valid ∧
        (selector = 5 → (next.tune1, next.tune2, next.tune3) = blackFloaterCodes) ∧
        (selector ≠ 5 → ∀ pair ∈ [(state.tune1, next.tune1), (state.tune2, next.tune2), (state.tune3, next.tune3)],
          pair.2 ≠ 0 ∧ (pair.1 ≠ 0 → pair.2 = pair.1)) := by
  unfold applyFloaterTune
  by_cases h5 : selector = 5
  · rw [if_pos h5]
    refine Or.inr ⟨_, rfl, ?_, fun _ => rfl, fun hne => absurd h5 hne⟩
    exact hvalid.replaceCodes (by decide) (by decide)
  · rw [if_neg h5]
    by_cases hfull : ∀ code ∈ state.codes, code ≠ 0
    · rw [if_pos hfull]
      exact Or.inl ⟨h5, hfull, rfl⟩
    · rw [if_neg hfull]
      have hkit : selector = 4 ∨ selector = 6 := by
        have h4 : (4 : Int16).toInt = 4 := rfl
        have h5' : (5 : Int16).toInt = 5 := rfl
        have h6 : (6 : Int16).toInt = 6 := rfl
        rw [Int16.le_iff_toInt_le, Int16.le_iff_toInt_le] at hselector
        rw [← Int16.toInt_inj] at h5 ⊢
        rw [← Int16.toInt_inj]
        omega
      obtain ⟨pool, hpool, hnodup, hlength, hcodes⟩ := floaterCodePool_spec hkit
      obtain ⟨havailable, hthree, hfresh⟩ := of_shuffled shuffle hnodup hlength (show state.codes.length = 3 from rfl)
      generalize hshuffled : shuffle.order (pool.filter (fun code => decide (code ∉ state.codes))) = available at *
      obtain ⟨first, rest1, hfirst, hfilled1⟩ := exists_filled selector state.tune1 havailable (by omega)
      have hlength1 := hfilled1.length
      obtain ⟨second, rest2, hsecond, hfilled2⟩ := exists_filled selector state.tune2 hfilled1.nodup (by omega)
      have hlength2 := hfilled2.length
      obtain ⟨third, rest3, hthird, hfilled3⟩ := exists_filled selector state.tune3 hfilled2.nodup (by omega)
      have hrest1 : ∀ code ∈ rest1, code ∈ available := hfilled1.subset
      have hrest2 : ∀ code ∈ rest2, code ∈ available := fun code hcode => hrest1 code (hfilled2.subset code hcode)
      have hnew : ∀ code ∈ available, code ≠ 0 ∧ code ≠ state.tune1 ∧ code ≠ state.tune2 ∧ code ≠ state.tune3 := by
        intro code hcode
        obtain ⟨hinpool, hunused⟩ := hfresh code hcode
        simp only [TuneState.codes, mem_cons, not_mem_nil, or_false, not_or] at hunused
        exact ⟨(hcodes code hinpool).2, hunused⟩
      have hdistinct := hvalid.distinct
      simp only [TuneState.codes, Nodup, pairwise_filter, pairwise_cons, mem_cons, not_mem_nil,
        or_false, forall_eq_or_imp, forall_eq, decide_eq_true_eq, Pairwise.nil, IsEmpty.forall_iff, implies_true,
        and_true] at hdistinct
      obtain ⟨⟨h12, h13⟩, h23⟩ := hdistinct
      have hother : ∀ {slot code available rest}, Filled slot available code rest →
          (slot ≠ 0 ∧ code = slot) ∨ (slot = 0 ∧ code ∈ available) := by
        intro slot code available rest h
        rcases h.code with hold | ⟨hzero, hmem, -⟩
        · exact Or.inl hold
        · exact Or.inr ⟨hzero, hmem⟩
      have hne12 : first ≠ second :=
        hfilled1.ne (fun code hcode => ⟨(hnew code hcode).2.1, (hnew code hcode).2.2.1⟩) h12 (hother hfilled2)
      have hne13 : first ≠ third := by
        refine hfilled1.ne (fun code hcode => ⟨(hnew code hcode).2.1, (hnew code hcode).2.2.2⟩) h13 ?_
        rcases hother hfilled3 with hold | ⟨hzero, hmem⟩
        · exact Or.inl hold
        · exact Or.inr ⟨hzero, hfilled2.subset third hmem⟩
      have hne23 : second ≠ third :=
        hfilled2.ne (fun code hcode => ⟨(hnew code (hrest1 code hcode)).2.2.1, (hnew code (hrest1 code hcode)).2.2.2⟩) h23
          (hother hfilled3)
      have hzero1 := hfilled1.ne_zero (fun code hcode => (hnew code hcode).1)
      have hzero2 := hfilled2.ne_zero (fun code hcode => (hnew code (hrest1 code hcode)).1)
      have hzero3 := hfilled3.ne_zero (fun code hcode => (hnew code (hrest2 code hcode)).1)
      have hkeeps : ∀ {slot code available rest}, Filled slot available code rest → slot ≠ 0 → code = slot := by
        intro slot code available rest h hslot
        rcases h.code with ⟨-, heq⟩ | ⟨hzero, -, -⟩
        · exact heq
        · exact absurd hzero hslot
      have hknown : ∀ {slot code available' rest}, Filled slot available' code rest → slot ∈ state.codes →
          (∀ other ∈ available', other ∈ available) → isKnownFloaterCode code = true := by
        intro slot code available' rest h hslot hsubset
        rcases h.code with ⟨-, rfl⟩ | ⟨-, hmem, -⟩
        · exact hvalid.known _ hslot
        · exact (hcodes _ (hfresh _ (hsubset _ hmem)).1).1
      refine Or.inr ⟨setFloaterCodes (first, second, third) state, ?_, ?_, fun heq => absurd heq h5, ?_⟩
      · refine bind_eq_ok.2 ⟨pool, orElse_eq_ok.2 hpool, ?_⟩
        simp only [hshuffled]
        refine bind_eq_ok.2 ⟨_, hfirst, ?_⟩
        refine bind_eq_ok.2 ⟨_, hsecond, ?_⟩
        exact bind_eq_ok.2 ⟨_, hthird, rfl⟩
      · refine hvalid.replaceCodes ?_ ?_
        · intro code hcode
          simp only [mem_cons, not_mem_nil, or_false] at hcode
          rcases hcode with rfl | rfl | rfl
          · exact hknown hfilled1 (by simp [TuneState.codes]) (fun _ h => h)
          · exact hknown hfilled2 (by simp [TuneState.codes]) hrest1
          · exact hknown hfilled3 (by simp [TuneState.codes]) hrest2
        · simp [hne12, hne13, hne23]
      · intro _ pair hpair
        simp only [mem_cons, not_mem_nil, or_false] at hpair
        rcases hpair with rfl | rfl | rfl
        · exact ⟨hzero1, hkeeps hfilled1⟩
        · exact ⟨hzero2, hkeeps hfilled2⟩
        · exact ⟨hzero3, hkeeps hfilled3⟩

/-! ## Resets -/

/-- The slots of a protection. -/
theorem slot_cases {slot : Int16} (h : -1 ≤ slot ∧ slot ≤ 2) : slot = -1 ∨ slot = 0 ∨ slot = 1 ∨ slot = 2 := by
  have hneg : (-1 : Int16).toInt = -1 := rfl
  have h1 : (1 : Int16).toInt = 1 := rfl
  have h2 : (2 : Int16).toInt = 2 := rfl
  rw [Int16.le_iff_toInt_le, Int16.le_iff_toInt_le] at h
  rw [← Int16.toInt_inj, ← Int16.toInt_inj, ← Int16.toInt_inj, ← Int16.toInt_inj, Int16.toInt_zero]
  omega

/-- A count that is not negative is zero or positive. -/
theorem count_pos_iff {count : Int16} (h : 0 ≤ count) : 0 < count ↔ count ≠ 0 := by
  rw [Int16.le_iff_toInt_le, Int16.toInt_zero] at h
  rw [Int16.lt_iff_toInt_lt, Ne, ← Int16.toInt_inj, Int16.toInt_zero]
  omega

/-- A positive count goes down by one. -/
theorem toInt_sub_one {count : Int16} (h : 0 < count) : (count - 1).toInt = count.toInt - 1 := by
  have hhigh := count.toInt_lt
  have h1 : (1 : Int16).toInt = 1 := rfl
  rw [Int16.lt_iff_toInt_lt, Int16.toInt_zero] at h
  rw [Int16.toInt_sub, h1]
  exact Int.bmod_eq_of_le (by omega) (by omega)

/-- At a reset a protection keeps the slot it is active on. -/
theorem kept_expireFloaterProtection {slot count maximum : Int16} (h : ProtectionValid slot count maximum) (a b c : Bool) :
    (expireFloaterProtection slot count [a, b, c]).kept =
      [a || decide (0 < count ∧ slot = 0), b || decide (0 < count ∧ slot = 1), c || decide (0 < count ∧ slot = 2)] := by
  obtain ⟨hslot, ⟨hcount, -⟩, hnone⟩ := h
  have hpos := count_pos_iff hcount
  unfold expireFloaterProtection
  by_cases hzero : count = 0
  · have hnot : ¬ 0 < count := fun hlt => hpos.1 hlt hzero
    rw [if_pos hzero]
    simp [hnot]
  · have hlt := hpos.2 hzero
    have hle : ¬ count ≤ 0 := Int16.not_le.2 hlt
    rw [if_neg hzero, consumeFloaterProtection, if_neg hle]
    rcases slot_cases hslot with rfl | rfl | rfl | rfl
    · exact absurd ⟨rfl, hzero⟩ hnone
    · simp [hlt]
    · simp [hlt]
    · simp [hlt]

/-- A reset clears the slots that are not protected, and keeps the others. -/
theorem code_resetFloaterSocket {state : TuneState} (h : state.Valid) (slot : Int16) :
    (resetFloaterSocket state).code slot = if state.Protects slot then state.code slot else 0 := by
  have hsecond := kept_expireFloaterProtection h.second
  have hkept : (expireFloaterProtection state.slot2 state.count2
      (expireFloaterProtection state.slot1 state.count1 [false, false, false]).kept).kept =
      [decide (state.Protects 0), decide (state.Protects 1), decide (state.Protects 2)] := by
    have hor : ∀ slot, (decide (0 < state.count1 ∧ state.slot1 = slot) || decide (0 < state.count2 ∧ state.slot2 = slot)) =
        decide (state.Protects slot) := by
      intro slot
      rw [Bool.eq_iff_iff, Bool.or_eq_true, decide_eq_true_eq, decide_eq_true_eq, decide_eq_true_eq]
      exact Iff.rfl
    rw [kept_expireFloaterProtection h.first, hsecond]
    simp only [Bool.false_or, hor]
  have h0 : (resetFloaterSocket state).tune1 = if state.Protects 0 then state.tune1 else 0 := by
    simp only [resetFloaterSocket, hkept, keptCode]
    simp
  have h1 : (resetFloaterSocket state).tune2 = if state.Protects 1 then state.tune2 else 0 := by
    simp only [resetFloaterSocket, hkept, keptCode]
    simp
  have h2 : (resetFloaterSocket state).tune3 = if state.Protects 2 then state.tune3 else 0 := by
    simp only [resetFloaterSocket, hkept, keptCode]
    simp
  unfold TuneState.code
  by_cases hs0 : slot = 0
  · subst hs0
    simp only [if_true, h0]
  · by_cases hs1 : slot = 1
    · subst hs1
      simp only [if_neg hs0, if_true, h1]
    · by_cases hs2 : slot = 2
      · subst hs2
        simp only [if_neg hs0, if_neg hs1, if_true, h2]
      · simp only [if_neg hs0, if_neg hs1, if_neg hs2, ite_self]

/-- A protection of a kind: its slot and its count. -/
def TuneState.protection (self : TuneState) (kind : Int16) : Int16 × Int16 :=
  if kind = 49 then (self.slot1, self.count1) else (self.slot2, self.count2)

/-- The protection that is not of the kind. -/
def TuneState.otherProtection (self : TuneState) (kind : Int16) : Int16 × Int16 :=
  if kind = 49 then (self.slot2, self.count2) else (self.slot1, self.count1)

/-- The resets that a protection of a kind lasts for. -/
def protectionLifetime (kind : Int16) : Nat := if kind = 49 then 4 else 3

/-- A reset counts a protection down, and clears one without a count. -/
theorem protection_resetFloaterSocket (state : TuneState) (kind : Int16) :
    (resetFloaterSocket state).protection kind =
        ((expireFloaterProtection (state.protection kind).1 (state.protection kind).2 []).slot,
          (expireFloaterProtection (state.protection kind).1 (state.protection kind).2 []).count) ∧
      (resetFloaterSocket state).otherProtection kind =
        ((expireFloaterProtection (state.otherProtection kind).1 (state.otherProtection kind).2 []).slot,
          (expireFloaterProtection (state.otherProtection kind).1 (state.otherProtection kind).2 []).count) := by
  have hsame : ∀ slot count kept, (expireFloaterProtection slot count kept).slot =
      (expireFloaterProtection slot count []).slot ∧
      (expireFloaterProtection slot count kept).count = (expireFloaterProtection slot count []).count := by
    intro slot count kept
    unfold expireFloaterProtection consumeFloaterProtection
    by_cases hzero : count = 0
    · simp [hzero]
    · by_cases hle : count ≤ 0
      · simp [hzero, hle]
      · simp [hzero, hle]
  by_cases h49 : kind = 49
  · simp only [TuneState.protection, TuneState.otherProtection, if_pos h49, resetFloaterSocket, hsame, and_self]
  · simp only [TuneState.protection, TuneState.otherProtection, if_neg h49, resetFloaterSocket, hsame, and_self]

/-- The protection that is not of the kind is active on a slot. -/
def TuneState.ProtectsOtherwise (self : TuneState) (kind slot : Int16) : Prop :=
  0 < (self.otherProtection kind).2 ∧ (self.otherProtection kind).1 = slot

theorem TuneState.protects_iff (self : TuneState) (kind slot : Int16) :
    self.Protects slot ↔ (0 < (self.protection kind).2 ∧ (self.protection kind).1 = slot) ∨ self.ProtectsOtherwise kind slot := by
  unfold Protects ProtectsOtherwise protection otherProtection
  by_cases h49 : kind = 49
  · simp only [if_pos h49]
  · simp only [if_neg h49]
    exact or_comm

/-- The other protection is valid too. -/
theorem TuneState.Valid.otherProtection {state : TuneState} (h : state.Valid) (kind : Int16) :
    0 ≤ (state.otherProtection kind).2 := by
  unfold TuneState.otherProtection
  by_cases h49 : kind = 49
  · rw [if_pos h49]
    exact h.second.2.1.1
  · rw [if_neg h49]
    exact h.first.2.1.1

/-- The code of a slot, so many resets after the slot was protected: it is kept while the protection lasts, and the other protection
stays away from the slot; then it is cleared. -/
def Lasting (kind slot code : Int16) (resets : Nat) (state : TuneState) : Prop :=
  if resets ≤ protectionLifetime kind then
    state.code slot = code ∧ (state.protection kind).1 = slot ∧
      (state.protection kind).2.toInt = protectionLifetime kind - resets ∧ ¬ state.ProtectsOtherwise kind slot
  else state.code slot = 0

/-- A reset takes one from what a protection lasts for. -/
theorem Lasting.reset {kind slot code : Int16} {resets : Nat} {state : TuneState} (h : Lasting kind slot code resets state)
    (hvalid : state.Valid) : Lasting kind slot code (resets + 1) (resetFloaterSocket state) := by
  unfold Lasting at h ⊢
  have hcode := code_resetFloaterSocket hvalid slot
  obtain ⟨hprotection, hother⟩ := protection_resetFloaterSocket state kind
  by_cases hlasts : resets ≤ protectionLifetime kind
  · rw [if_pos hlasts] at h
    obtain ⟨hkept, hslot, hcount, hnot⟩ := h
    by_cases hnext : resets + 1 ≤ protectionLifetime kind
    · have hpos : 0 < (state.protection kind).2 := by
        rw [Int16.lt_iff_toInt_lt, Int16.toInt_zero, hcount]
        omega
      have hne : (state.protection kind).2 ≠ 0 := by
        rw [Ne, ← Int16.toInt_inj, Int16.toInt_zero, hcount]
        omega
      have hle : ¬ (state.protection kind).2 ≤ 0 := Int16.not_le.2 hpos
      have hprotects : state.Protects slot := (state.protects_iff kind slot).2 (Or.inl ⟨hpos, hslot⟩)
      rw [if_pos hnext]
      refine ⟨by rw [hcode, if_pos hprotects, hkept], ?_, ?_, ?_⟩
      · simp only [hprotection, expireFloaterProtection, if_neg hne, consumeFloaterProtection, if_neg hle, hslot]
      · simp only [hprotection, expireFloaterProtection, if_neg hne, consumeFloaterProtection, if_neg hle]
        rw [toInt_sub_one hpos, hcount]
        push_cast
        omega
      · rintro ⟨hactive, hsame⟩
        simp only [hother] at hactive hsame
        unfold expireFloaterProtection at hactive hsame
        by_cases hzero : (state.otherProtection kind).2 = 0
        · rw [if_pos hzero] at hactive
          simp only [hzero] at hactive
          exact absurd hactive (by decide)
        · have hposother := (count_pos_iff (hvalid.otherProtection kind)).2 hzero
          rw [if_neg hzero, consumeFloaterProtection, if_neg (Int16.not_le.2 hposother)] at hsame
          exact hnot ⟨hposother, hsame⟩
    · have hzero : ¬ 0 < (state.protection kind).2 := by
        rw [Int16.lt_iff_toInt_lt, Int16.toInt_zero, hcount]
        omega
      have hprotects : ¬ state.Protects slot := by
        rw [state.protects_iff kind slot]
        rintro (⟨hactive, -⟩ | hactive)
        · exact hzero hactive
        · exact hnot hactive
      rw [if_neg hnext, hcode, if_neg hprotects]
  · rw [if_neg hlasts] at h
    rw [if_neg (by omega), hcode, h, ite_self]

/-- A protected slot has a code, and is protected by this protection only. -/
theorem Lasting.of_protect {kind slot : Int16} {state next : TuneState} (h : protectFloaterSlot kind slot state = .ok next) :
    state.code slot ≠ 0 ∧ Lasting kind slot (state.code slot) 0 next := by
  simp only [protectFloaterSlot, bind_eq_ok, ensure_eq_ok, exists_const] at h
  obtain ⟨hcode, hfree, h⟩ := h
  refine ⟨hcode, ?_⟩
  rw [Lasting, if_pos (Nat.zero_le _)]
  by_cases h49 : kind = 49
  · subst h49
    rw [if_pos rfl] at h
    obtain rfl := Except.ok.inj h
    refine ⟨rfl, rfl, rfl, fun hother => hfree (Or.inr hother)⟩
  · rw [if_neg h49] at h
    by_cases h53 : kind = 53
    · subst h53
      rw [if_pos rfl] at h
      obtain rfl := Except.ok.inj h
      refine ⟨rfl, rfl, rfl, fun hother => hfree (Or.inl hother)⟩
    · rw [if_neg h53] at h
      exact absurd h (by simp)

/-! ## Runs -/

/-- The record of a kart in a file. -/
def floaterRecord (file : Option (Sidecar TuneState)) (k : KartKey) : Option TuneState :=
  match parseTuneStates file with
  | .ok states => lookup TuneState.key k states
  | .error _ => none

/-- A change of a record that touches neither the protection of a kind nor the code of a slot, nor puts the other protection on the
slot. -/
def LeavesAlone (kind slot : Int16) (state next : TuneState) : Prop :=
  next.code slot = state.code slot ∧ next.protection kind = state.protection kind ∧
    (next.ProtectsOtherwise kind slot → state.ProtectsOtherwise kind slot)

/-- An operation is a reset. -/
def FloaterOperation.isReset : FloaterOperation → Bool
  | .reset => true
  | _ => false

/-- A request succeeds. -/
def FloaterRequest.succeeds (textLength : List TuneState → Nat) (file : Option (Sidecar TuneState)) (self : FloaterRequest) : Bool :=
  match self.perform textLength file with
  | .ok _ => true
  | .error _ => false

/-- The requests of a run leave a protection of a kart alone, but for the resets of its socket. -/
def Undisturbed (textLength : List TuneState → Nat) (kind slot : Int16) (k : KartKey) :
    Option (Sidecar TuneState) → List FloaterRequest → Prop
  | _, [] => True
  | file, request :: rest =>
    ((request.key = k ∧ request.operation.isReset = true) ∨
      ∀ state next, floaterRecord file k = some state → floaterRecord (request.fileAfter textLength file) k = some next →
        LeavesAlone kind slot state next) ∧
      Undisturbed textLength kind slot k (request.fileAfter textLength file) rest

/-- The resets of a kart that succeed in a run. -/
def resetsIn (textLength : List TuneState → Nat) (k : KartKey) : Option (Sidecar TuneState) → List FloaterRequest → Nat
  | _, [] => 0
  | file, request :: rest =>
    (if request.key = k ∧ request.operation.isReset = true ∧ request.succeeds textLength file = true then 1 else 0) +
      resetsIn textLength k (request.fileAfter textLength file) rest

/-- What leaves a protection alone keeps how long it lasts. -/
theorem Lasting.leavesAlone {kind slot code : Int16} {resets : Nat} {state next : TuneState}
    (h : Lasting kind slot code resets state) (halone : LeavesAlone kind slot state next) : Lasting kind slot code resets next := by
  obtain ⟨hcode, hprotection, hother⟩ := halone
  unfold Lasting at h ⊢
  by_cases hlasts : resets ≤ protectionLifetime kind
  · rw [if_pos hlasts] at h ⊢
    obtain ⟨hkept, hslot, hcount, hnot⟩ := h
    rw [hcode, hprotection]
    exact ⟨hkept, hslot, hcount, fun hprotects => hnot (hother hprotects)⟩
  · rw [if_neg hlasts] at h ⊢
    rw [hcode, h]

section Requests

variable {textLength : List TuneState → Nat} {file : Option (Sidecar TuneState)} {states : List TuneState}
  {request : FloaterRequest}

theorem floaterRecord_eq (hfile : parseTuneStates file = .ok states) (k : KartKey) :
    floaterRecord file k = lookup TuneState.key k states := by
  rw [floaterRecord, hfile]

variable (textLength request) in
/-- The record of a kart after a request: the changed one of the kart that the request names, or the one from before. -/
theorem FloaterRequest.floaterRecord_fileAfter (hfile : parseTuneStates file = .ok states) {k : KartKey} {state : TuneState}
    (hstate : floaterRecord file k = some state) :
    (request.key = k ∧ request.succeeds textLength file = true ∧
        ∃ next, request.operation.mutation state = .ok next ∧
          floaterRecord (request.fileAfter textLength file) k = some next) ∨
      ((request.key ≠ k ∨ request.succeeds textLength file = false) ∧
        floaterRecord (request.fileAfter textLength file) k = some state) := by
  rw [floaterRecord_eq hfile] at hstate
  unfold fileAfter succeeds
  rcases hperform : request.perform textLength file with error | ⟨outcome, written⟩
  · exact Or.inr ⟨Or.inr rfl, by rw [floaterRecord_eq hfile, hstate]⟩
  · obtain ⟨-, before, next, hfound, hmutation, hkey, -, -, -, hparse⟩ := of_perform hfile hperform
    by_cases hk : request.key = k
    · subst hk
      rcases hfound with hbefore | ⟨-, hnone, -⟩
      · obtain rfl := Option.some.inj (hstate.symm.trans hbefore)
        refine Or.inl ⟨rfl, rfl, next, hmutation, ?_⟩
        rw [floaterRecord_eq hparse, lookup_put_self _ hkey]
      · rw [hnone] at hstate
        exact absurd hstate (by simp)
    · refine Or.inr ⟨Or.inl hk, ?_⟩
      rw [floaterRecord_eq hparse, lookup_put_of_ne _ hkey (fun heq => hk heq.symm), hstate]

/-- The step of a protection: a reset of its kart takes one from what it lasts for, any other request of the run keeps it. -/
theorem Lasting.fileAfter {kind slot code : Int16} {k : KartKey} {resets : Nat} {rest : List FloaterRequest} {state : TuneState}
    (hfile : parseTuneStates file = .ok states) (hstate : floaterRecord file k = some state)
    (h : Lasting kind slot code resets state) (hrun : Undisturbed textLength kind slot k file (request :: rest)) :
    ∃ next, floaterRecord (request.fileAfter textLength file) k = some next ∧
      Lasting kind slot code
        (resets + if request.key = k ∧ request.operation.isReset = true ∧ request.succeeds textLength file = true then 1 else 0)
        next := by
  have hvalid : state.Valid := by
    rw [floaterRecord_eq hfile] at hstate
    exact (of_parseTuneStates hfile).valid state (mem_of_lookup _ hstate)
  rcases FloaterRequest.floaterRecord_fileAfter textLength request hfile hstate with
    ⟨hkey, hsucceeds, next, hmutation, hnext⟩ | ⟨hnone, hnext⟩
  · refine ⟨next, hnext, ?_⟩
    by_cases hreset : request.operation.isReset = true
    · rw [if_pos ⟨hkey, hreset, hsucceeds⟩]
      have hsame : request.operation.mutation state = .ok (resetFloaterSocket state) := by
        unfold FloaterOperation.isReset at hreset
        rcases hoperation : request.operation with _ | codes | ⟨selector, shuffle⟩ | ⟨kind, slot⟩ | _
        · simp [hoperation] at hreset
        · simp [hoperation] at hreset
        · simp [hoperation] at hreset
        · simp [hoperation] at hreset
        · rfl
      obtain rfl := Except.ok.inj (hsame.symm.trans hmutation)
      exact h.reset hvalid
    · rw [if_neg (fun hall => hreset hall.2.1)]
      rcases hrun.1 with ⟨-, hyes⟩ | halone
      · exact absurd hyes hreset
      · exact h.leavesAlone (halone state next hstate hnext)
  · refine ⟨state, hnext, ?_⟩
    rw [if_neg ?_]
    · exact h
    · rintro ⟨hkey, -, hsucceeds⟩
      rcases hnone with hother | hfails
      · exact hother hkey
      · rw [hsucceeds] at hfails
        exact absurd hfails (by simp)

/-- A protection over a run. -/
theorem Lasting.floatersAfter {kind slot code : Int16} {k : KartKey} {resets : Nat} {later : List FloaterRequest}
    {state : TuneState} (hfile : parseTuneStates file = .ok states) (hstate : floaterRecord file k = some state)
    (h : Lasting kind slot code resets state) (hrun : Undisturbed textLength kind slot k file later) :
    ∃ next, floaterRecord (P5136.floatersAfter textLength file later) k = some next ∧
      Lasting kind slot code (resets + resetsIn textLength k file later) next := by
  induction later generalizing file states resets state with
  | nil => exact ⟨state, hstate, h⟩
  | cons request rest ih =>
    obtain ⟨states', hparse⟩ := request.parse_fileAfter textLength hfile
    obtain ⟨next, hnext, hlasting⟩ := h.fileAfter hfile hstate hrun
    obtain ⟨last, hlast, hrest⟩ := ih hparse hnext hlasting hrun.2
    refine ⟨last, hlast, ?_⟩
    rw [resetsIn, ← Nat.add_assoc]
    exact hrest

end Requests

/-! ## The life of a socket -/

/-- What a successful request did: the file it wrote is accepted again with the same records; a kit filled every slot, and changed
none with a code, but for the black kit; a reset cleared the slots without protection, and no other; a protected slot keeps its
code through so many resets, and then loses it. -/
structure FloaterDone (textLength : List TuneState → Nat) (before : Option (Sidecar TuneState)) (request : FloaterRequest)
    (written : Sidecar TuneState) : Prop where
  file : request.fileAfter textLength before = some written
  again : parseTuneStates (some written) = .ok written.records
  accepted : AcceptedTunes written.records
  kit : ∀ selector shuffle, request.operation = .applyKit selector shuffle → ∃ state next,
    floaterRecord before request.key = some state ∧ floaterRecord (some written) request.key = some next ∧
      (∀ code ∈ next.codes, code ≠ 0) ∧
      (selector = 5 → (next.tune1, next.tune2, next.tune3) = blackFloaterCodes) ∧
      (selector ≠ 5 → ∀ slot, state.code slot ≠ 0 → next.code slot = state.code slot)
  reset : request.operation = .reset → ∃ state next,
    floaterRecord before request.key = some state ∧ floaterRecord (some written) request.key = some next ∧
      ∀ slot, next.code slot = if state.Protects slot then state.code slot else 0
  protect : ∀ kind slot, request.operation = .protect kind slot → ∃ state,
    floaterRecord before request.key = some state ∧ state.code slot ≠ 0 ∧
      ∀ later, Undisturbed textLength kind slot request.key (some written) later → ∃ next,
        floaterRecord (floatersAfter textLength (some written) later) request.key = some next ∧
          next.code slot =
            if resetsIn textLength request.key (some written) later ≤ protectionLifetime kind then state.code slot else 0

/-- Why a kit fails: its selector or kart is none, the kart has no socket, its slots are full, or the records with its codes are
too long to be written. -/
def KitRefused (textLength : List TuneState → Nat) (before : Option (Sidecar TuneState)) (request : FloaterRequest)
    (selector : Int16) (shuffle : Shuffle) (error : EquipmentStateError) : Prop :=
  (¬ (4 ≤ selector ∧ selector ≤ 6) ∧ error = .invalidFloaterSelector selector) ∨
    (request.kartId ≤ 0 ∧ error = .invalidFloaterKart request.kartId) ∨
    (floaterRecord before request.key = none ∧ error = .missingFloaterState request.key.1 request.key.2) ∨
    (∃ state, floaterRecord before request.key = some state ∧ selector ≠ 5 ∧ (∀ code ∈ state.codes, code ≠ 0) ∧
      error = .floaterSlotsFull) ∨
    ∃ states state next, parseTuneStates before = .ok states ∧ floaterRecord before request.key = some state ∧
      applyFloaterTune selector shuffle state = .ok next ∧
      maxEquipmentStateBytes < textLength (put TuneState.key request.key next states) ∧
      error = .tooLarge (textLength (put TuneState.key request.key next states)) maxEquipmentStateBytes

section Requests

variable {textLength : List TuneState → Nat} {file : Option (Sidecar TuneState)} {states : List TuneState}
  {request : FloaterRequest}

/-- A kit is refused for no other reason; in particular its codes do not run out. -/
theorem kitRefused {selector : Int16} {shuffle : Shuffle} {error : EquipmentStateError}
    (hfile : parseTuneStates file = .ok states) (hkit : request.operation = .applyKit selector shuffle)
    (h : request.perform textLength file = .error error) :
    KitRefused textLength file request selector shuffle error := by
  have haccepted := of_parseTuneStates hfile
  unfold FloaterRequest.perform at h
  rw [hkit] at h
  rcases bind_eq_error.1 h with hselector | ⟨_, hselector, h⟩
  · obtain ⟨hnone, rfl⟩ := ensure_eq_error.1 hselector
    exact Or.inl ⟨hnone, rfl⟩
  rw [ensure_eq_ok] at hselector
  rcases bind_eq_error.1 h with hkart | ⟨_, -, h⟩
  · obtain ⟨hnone, rfl⟩ := ensure_eq_error.1 hkart
    exact Or.inr (Or.inl ⟨not_not.1 hnone, rfl⟩)
  rcases bind_eq_error.1 h with hparse | ⟨states', hparse, h⟩
  · rw [hfile] at hparse
    exact absurd hparse (by simp)
  obtain rfl := Except.ok.inj (hfile.symm.trans hparse)
  rcases bind_eq_error.1 h with hfind | ⟨state, hfind, h⟩
  · obtain ⟨hnone, rfl⟩ := orElse_eq_error.1 hfind
    refine Or.inr (Or.inr (Or.inl ⟨?_, rfl⟩))
    rw [floaterRecord_eq hfile]
    exact hnone
  have hrecord : floaterRecord file request.key = some state := by
    rw [floaterRecord_eq hfile]
    exact orElse_eq_ok.1 hfind
  have hvalid := haccepted.valid state (mem_of_lookup _ (orElse_eq_ok.1 hfind))
  rcases applyFloaterTune_spec shuffle hvalid hselector with ⟨h5, hfull, herror⟩ | ⟨next, hnext, hvalidNext, -, -⟩
  · rw [herror] at h
    obtain rfl := Except.error.inj h
    exact Or.inr (Or.inr (Or.inr (Or.inl ⟨state, hrecord, h5, hfull, rfl⟩)))
  rcases bind_eq_error.1 h with hmutation | ⟨next', hmutation, h⟩
  · rw [hnext] at hmutation
    exact absurd hmutation (by simp)
  obtain rfl := Except.ok.inj (hnext.symm.trans hmutation)
  rcases bind_eq_error.1 h with hvalidate | ⟨_, -, h⟩
  · rw [validateTuneState_eq_ok.2 hvalidNext] at hvalidate
    exact absurd hvalidate (by simp)
  rcases bind_eq_error.1 h with hwrite | ⟨_, -, h⟩
  · unfold Sidecar.write at hwrite
    by_cases hlarge : maxEquipmentStateBytes <
        textLength (put TuneState.key (request.kartId, normalizeKartSerial request.kartId request.kartSerial) next states)
    · rw [if_pos hlarge] at hwrite
      exact Or.inr (Or.inr (Or.inr (Or.inr ⟨_, state, _, hfile, hrecord, hnext, hlarge, (Except.error.inj hwrite).symm⟩)))
    · rw [if_neg hlarge] at hwrite
      exact absurd hwrite (by simp)
  · exact absurd h (by simp)

/-- What a successful request did to an accepted file. -/
theorem floaterDone {outcome : FloaterResetOutcome} {written : Sidecar TuneState} (hfile : parseTuneStates file = .ok states)
    (h : request.perform textLength file = .ok (outcome, written)) : FloaterDone textLength file request written := by
  have haccepted := of_parseTuneStates hfile
  obtain ⟨hadmitted, state, next, hfound, hmutation, hkey, -, -, hrecords, hparse⟩ := FloaterRequest.of_perform hfile h
  have hbefore : request.operation.inserts = false → floaterRecord file request.key = some state := by
    intro hinserts
    rw [floaterRecord_eq hfile]
    rcases hfound with hlookup | ⟨hyes, -, -⟩
    · exact hlookup
    · rw [hinserts] at hyes
      exact absurd hyes (by simp)
  have hvalid : request.operation.inserts = false → state.Valid := by
    intro hinserts
    have hlookup := hbefore hinserts
    rw [floaterRecord_eq hfile] at hlookup
    exact haccepted.valid state (mem_of_lookup _ hlookup)
  have hafter : floaterRecord (some written) request.key = some next := by
    rw [floaterRecord_eq hparse, lookup_put_self _ hkey]
  refine ⟨?_, ?_, ?_, ?_, ?_, ?_⟩
  · rw [FloaterRequest.fileAfter, h]
  · rw [hrecords]
    exact hparse
  · rw [hrecords]
    exact of_parseTuneStates hparse
  · intro selector shuffle hkit
    rw [hkit] at hadmitted hmutation hbefore hvalid
    rcases applyFloaterTune_spec shuffle (hvalid rfl) hadmitted with ⟨-, -, herror⟩ | ⟨next', hnext, -, hblack, hkept⟩
    · rw [show applyFloaterTune selector shuffle state = .ok next from hmutation] at herror
      exact absurd herror (by simp)
    · obtain rfl := Except.ok.inj (hnext.symm.trans hmutation)
      refine ⟨state, next', hbefore rfl, hafter, ?_, hblack, ?_⟩
      · by_cases h5 : selector = 5
        · obtain ⟨h1, hrest⟩ := Prod.mk.inj (hblack h5)
          obtain ⟨h2, h3⟩ := Prod.mk.inj hrest
          rw [TuneState.codes, h1, h2, h3]
          decide
        · have hall := hkept h5
          simp only [forall_mem_cons, not_mem_nil, IsEmpty.forall_iff, implies_true, and_true] at hall
          simp only [TuneState.codes, forall_mem_cons, not_mem_nil, IsEmpty.forall_iff, implies_true, and_true]
          exact ⟨hall.1.1, hall.2.1.1, hall.2.2.1⟩
      · intro h5 slot hslot
        have hall := hkept h5
        simp only [forall_mem_cons, not_mem_nil, IsEmpty.forall_iff, implies_true, and_true] at hall
        unfold TuneState.code at hslot ⊢
        by_cases h0 : slot = 0
        · simp only [if_pos h0] at hslot ⊢
          exact hall.1.2 hslot
        · simp only [if_neg h0] at hslot ⊢
          by_cases h1 : slot = 1
          · simp only [if_pos h1] at hslot ⊢
            exact hall.2.1.2 hslot
          · simp only [if_neg h1] at hslot ⊢
            by_cases h2 : slot = 2
            · simp only [if_pos h2] at hslot ⊢
              exact hall.2.2.2 hslot
            · simp only [if_neg h2]
  · intro hreset
    rw [hreset] at hmutation hbefore hvalid
    obtain rfl := Except.ok.inj hmutation
    exact ⟨state, _, hbefore rfl, hafter, fun slot => code_resetFloaterSocket (hvalid rfl) slot⟩
  · intro kind slot hprotect
    rw [hprotect] at hmutation hbefore
    obtain ⟨hcode, hlasting⟩ := Lasting.of_protect hmutation
    refine ⟨state, hbefore rfl, hcode, ?_⟩
    intro later hrun
    obtain ⟨last, hlast, hlasts⟩ := hlasting.floatersAfter hparse hafter hrun
    refine ⟨last, hlast, ?_⟩
    rw [Nat.zero_add] at hlasts
    unfold Lasting at hlasts
    by_cases hlong : resetsIn textLength request.key (some written) later ≤ protectionLifetime kind
    · rw [if_pos hlong] at hlasts ⊢
      exact hlasts.1
    · rw [if_neg hlong] at hlasts ⊢
      exact hlasts

end Requests

/-- From a tune file that the loader accepts, every run of requests keeps it accepted: a request that fails changes nothing, and a
kit never fails for want of codes; one that succeeds does what it is for. -/
theorem floater_lifecycle (textLength : List TuneState → Nat) (file : Option (Sidecar TuneState)) (start : List TuneState)
    (hfile : parseTuneStates file = .ok start) (done : List FloaterRequest) (request : FloaterRequest) :
    (∃ states, parseTuneStates (floatersAfter textLength file done) = .ok states ∧ AcceptedTunes states) ∧
      (∀ error, request.perform textLength (floatersAfter textLength file done) = .error error →
        request.fileAfter textLength (floatersAfter textLength file done) = floatersAfter textLength file done ∧
          ∀ selector shuffle, request.operation = .applyKit selector shuffle →
            KitRefused textLength (floatersAfter textLength file done) request selector shuffle error) ∧
      ∀ outcome written, request.perform textLength (floatersAfter textLength file done) = .ok (outcome, written) →
        FloaterDone textLength (floatersAfter textLength file done) request written := by
  obtain ⟨states, hparse⟩ := parse_floatersAfter textLength done hfile
  refine ⟨⟨states, hparse, of_parseTuneStates hparse⟩, ?_, ?_⟩
  · intro error herror
    refine ⟨?_, ?_⟩
    · rw [FloaterRequest.fileAfter, herror]
    · intro selector shuffle hkit
      exact kitRefused hparse hkit herror
  · intro outcome written h
    exact floaterDone hparse h

namespace FloaterAux

/-- A kart, stored without a serial, that has an empty socket. -/
def socket : Option (Sidecar TuneState) := some ⟨200, [⟨1401, 0, 0, 0, 0, -1, 0, -1, 0⟩]⟩

/-- A kit fills its slots. -/
def kit : FloaterRequest := ⟨1401, 0, .applyKit 4 ⟨id, fun _ => .refl _⟩⟩

def resets (count : Nat) : List FloaterRequest := List.replicate count ⟨1401, 1, .reset⟩

theorem undisturbed_resets (count : Nat) (file : Option (Sidecar TuneState)) :
    Undisturbed (fun _ => 203) 49 0 (1401, 1) file (resets count) := by
  induction count generalizing file with
  | zero => trivial
  | succ count ih => exact ⟨.inl ⟨rfl, rfl⟩, ih _⟩

end FloaterAux

open FloaterAux in
/-- A code of a kit is protected: it is there after four resets, and gone after the fifth. -/
theorem floater_lifecycle_protect : ∃ written,
    FloaterDone (fun _ => 203) (floatersAfter (fun _ => 203) socket [kit]) ⟨1401, 0, .protect 49 0⟩ written ∧
      ∃ state fourth fifth, floaterRecord (floatersAfter (fun _ => 203) socket [kit]) (1401, 1) = some state ∧
        floaterRecord (floatersAfter (fun _ => 203) (some written) (resets 4)) (1401, 1) = some fourth ∧
        floaterRecord (floatersAfter (fun _ => 203) (some written) (resets 5)) (1401, 1) = some fifth ∧
        state.code 0 ≠ 0 ∧ fourth.code 0 = state.code 0 ∧ fifth.code 0 = 0 := by
  have hdone := (floater_lifecycle (fun _ => 203) socket [⟨1401, 1, 0, 0, 0, -1, 0, -1, 0⟩] (by decide +kernel) [kit]
    ⟨1401, 0, .protect 49 0⟩).2.2
      ⟨⟨1401, 1, 12003, 11903, 11803, -1, 0, -1, 0⟩, ⟨1401, 1, 12003, 11903, 11803, 0, 4, -1, 0⟩⟩
      ⟨203, [⟨1401, 1, 12003, 11903, 11803, 0, 4, -1, 0⟩]⟩ (by decide +kernel)
  obtain ⟨state, hstate, hcode, hlater⟩ := hdone.protect 49 0 rfl
  obtain ⟨fourth, hfourth, hkept⟩ := hlater (resets 4) (undisturbed_resets 4 _)
  obtain ⟨fifth, hfifth, hgone⟩ := hlater (resets 5) (undisturbed_resets 5 _)
  rw [if_pos (by decide +kernel)] at hkept
  rw [if_neg (by decide +kernel)] at hgone
  exact ⟨_, hdone, state, fourth, fifth, hstate, hfourth, hfifth, hcode, hkept, hgone⟩

end P5136
