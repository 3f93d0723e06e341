import Mathlib.Data.List.TakeWhile
import P5136.Profile.Sidecar

/-!
# Equipped parts

The plant parts and the X parts of a rider's karts: one request replaces the fields of one category in the record of one kart. The
plant file is read with its serials normalized and each key once; the X-parts file is read as it is, and its records are laid over
the global ones when they are shown.
-/

namespace P5136

open Keyed Checks Except

/-- A kart of a rider: its item and its serial. -/
abbrev KartKey := Int16 × Int16

/-- What a list of records shows changed only at one key, where the record (or a fresh one) has a part replaced. -/
def ChangesOnly {ρ : Type} (key : ρ → KartKey) (k : KartKey) (fresh : ρ) (replace : ρ → ρ) (old new : List ρ) : Prop :=
  shown key k new = [replace ((lookup key k old).getD fresh)] ∧
    ∀ other, other ≠ k → shown key other new = shown key other old

/-! ## Plant parts -/

/-- `PlantPartEquipRequest`: the part, and the kart it is for. -/
structure PlantPartEquipRequest where
  itemCategory : Int16
  itemId : Int16
  kartId : Int16
  kartSerial : Int16
deriving DecidableEq

structure PlantExcRecord where
  id : Int16
  serial : Int16
  engineCategory : Int16
  engineId : Int16
  handleCategory : Int16
  handleId : Int16
  wheelCategory : Int16
  wheelId : Int16
  kitCategory : Int16
  kitId : Int16
deriving DecidableEq

structure PlantState where
  id : Int16
  serial : Int16
  engineCategory : Int16
  engineId : Int16
  handleCategory : Int16
  handleId : Int16
  wheelCategory : Int16
  wheelId : Int16
  kitCategory : Int16
  kitId : Int16
deriving DecidableEq

namespace PlantExcRecord

/-- The kart of a record. -/
def key (self : PlantExcRecord) : KartKey := (self.id, self.serial)

/-- The record of a kart without parts. -/
def blank (k : KartKey) : PlantExcRecord := ⟨k.1, k.2, 0, 0, 0, 0, 0, 0, 0, 0⟩

/-- The record with the part of one category replaced. -/
def withPart (request : PlantPartEquipRequest) (self : PlantExcRecord) : PlantExcRecord :=
  if request.itemCategory = 43 then { self with engineCategory := 43, engineId := request.itemId }
  else if request.itemCategory = 44 then { self with handleCategory := 44, handleId := request.itemId }
  else if request.itemCategory = 45 then { self with wheelCategory := 45, wheelId := request.itemId }
  else if request.itemCategory = 46 then { self with kitCategory := 46, kitId := request.itemId }
  else self

end PlantExcRecord

namespace PlantState

/-- The kart of a record as it is stored. -/
def key (self : PlantState) : KartKey := (self.id, self.serial)

/-- `PlantState::default` of a kart. -/
def fresh (k : KartKey) : PlantState := ⟨k.1, k.2, 0, 0, 0, 0, 0, 0, 0, 0⟩

def setPart (self : PlantState) (category itemId : Int16) : PlantState :=
  if category = 43 then { self with engineCategory := category, engineId := itemId }
  else if category = 44 then { self with handleCategory := category, handleId := itemId }
  else if category = 45 then { self with wheelCategory := category, wheelId := itemId }
  else if category = 46 then { self with kitCategory := category, kitId := itemId }
  else self

def asException (self : PlantState) : PlantExcRecord :=
  ⟨self.id, normalizeKartSerial self.id self.serial, self.engineCategory, self.engineId, self.handleCategory, self.handleId,
    self.wheelCategory, self.wheelId, self.kitCategory, self.kitId⟩

/-- The serial of a record is normalized. -/
def normalized (self : PlantState) : PlantState := { self with serial := normalizeKartSerial self.id self.serial }

@[simp] theorem key_setPart (self : PlantState) (category itemId : Int16) : (self.setPart category itemId).key = self.key := by
  unfold setPart
  split
  · rfl
  · split
    · rfl
    · split
      · rfl
      · split <;> rfl

/-- Replacing a part of a state replaces it in what the state shows. -/
theorem asException_setPart (self : PlantState) (request : PlantPartEquipRequest) :
    (self.setPart request.itemCategory request.itemId).asException = self.asException.withPart request := by
  unfold setPart PlantExcRecord.withPart
  by_cases h43 : request.itemCategory = 43
  · rw [if_pos h43, if_pos h43, h43]
    rfl
  · rw [if_neg h43, if_neg h43]
    by_cases h44 : request.itemCategory = 44
    · rw [if_pos h44, if_pos h44, h44]
      rfl
    · rw [if_neg h44, if_neg h44]
      by_cases h45 : request.itemCategory = 45
      · rw [if_pos h45, if_pos h45, h45]
        rfl
      · rw [if_neg h45, if_neg h45]
        by_cases h46 : request.itemCategory = 46
        · rw [if_pos h46, if_pos h46, h46]
          rfl
        · rw [if_neg h46, if_neg h46]

end PlantState

def parsePlantStates (file : Option (Sidecar PlantState)) : Except EquipmentStateError (List PlantState) := do
  let states ← Sidecar.read "plant" file
  .ok (deduplicateLastByKey (states.map PlantState.normalized) PlantState.key)

def loadPlantRecords (file : Option (Sidecar PlantState)) : Except EquipmentStateError (List PlantExcRecord) := do
  let states ← parsePlantStates file
  .ok (states.map PlantState.asException)

def validatePlantRequest (request : PlantPartEquipRequest) : Except EquipmentStateError Unit := do
  ensure (43 ≤ request.itemCategory ∧ request.itemCategory ≤ 46) (.invalidPlantPartCategory request.itemCategory)
  ensure (¬ request.itemId < 0) (.invalidPlantPartItem request.itemId)
  ensure (¬ request.kartId ≤ 0) (.invalidPlantKart request.kartId)

/-- The kart of a request, its serial normalized. -/
def PlantPartEquipRequest.key (request : PlantPartEquipRequest) : KartKey :=
  (request.kartId, normalizeKartSerial request.kartId request.kartSerial)

/-- `equip_plant_part_capability`, given the length of the text of the records. -/
def equipPlantPart (textLength : List PlantState → Nat) (file : Option (Sidecar PlantState)) (request : PlantPartEquipRequest) :
    Except EquipmentStateError (PlantExcRecord × Sidecar PlantState) := do
  validatePlantRequest request
  let states ← parsePlantStates file
  let state ← findOrInsert "plant" PlantState.key request.key (.fresh request.key) states
  let next := state.setPart request.itemCategory request.itemId
  let written ← Sidecar.write textLength (put PlantState.key request.key next states)
  .ok (next.asException, written)

/-! ## X parts -/

/-- `XPartEquipRequest`: the part, and the kart it is for. -/
structure XPartEquipRequest where
  kartId : Int16
  kartSerial : Int16
  itemCategory : Int16
  itemId : Int16
  grade : UInt8
  partsValue : Int16
deriving DecidableEq

structure PartsExcRecord where
  id : Int16
  serial : Int16
  engine : Int16
  engineGrade : UInt8
  engineValue : Int16
  handle : Int16
  handleGrade : UInt8
  handleValue : Int16
  wheel : Int16
  wheelGrade : UInt8
  wheelValue : Int16
  booster : Int16
  boosterGrade : UInt8
  boosterValue : Int16
  coating : Int16
  tailLamp : Int16
deriving DecidableEq

structure PartsState where
  id : Int16
  serial : Int16
  engine : Int16
  engineGrade : UInt8
  engineValue : Int16
  handle : Int16
  handleGrade : UInt8
  handleValue : Int16
  wheel : Int16
  wheelGrade : UInt8
  wheelValue : Int16
  booster : Int16
  boosterGrade : UInt8
  boosterValue : Int16
  coating : Int16
  tailLamp : Int16
deriving DecidableEq

namespace PartsExcRecord

/-- The kart of a record. -/
def key (self : PartsExcRecord) : KartKey := (self.id, self.serial)

/-- The record of a kart without parts. -/
def blank (k : KartKey) : PartsExcRecord := ⟨k.1, k.2, 0, 0, 0, 0, 0, 0, 0, 0, 0, 0, 0, 0, 0, 0⟩

/-- The record with the part of one category replaced. -/
def withPart (request : XPartEquipRequest) (self : PartsExcRecord) : PartsExcRecord :=
  if request.itemCategory = 63 then
    { self with engine := request.itemId, engineGrade := request.grade, engineValue := request.partsValue }
  else if request.itemCategory = 64 then
    { self with handle := request.itemId, handleGrade := request.grade, handleValue := request.partsValue }
  else if request.itemCategory = 65 then
    { self with wheel := request.itemId, wheelGrade := request.grade, wheelValue := request.partsValue }
  else if request.itemCategory = 66 then
    { self with booster := request.itemId, boosterGrade := request.grade, boosterValue := request.partsValue }
  else if request.itemCategory = 68 then { self with coating := request.itemId }
  else if request.itemCategory = 69 then { self with tailLamp := request.itemId }
  else self

end PartsExcRecord

namespace PartsState

/-- The kart of a record as it is stored. -/
def key (self : PartsState) : KartKey := (self.id, self.serial)

/-- `PartsState::default` of a kart. -/
def fresh (k : KartKey) : PartsState := ⟨k.1, k.2, 0, 0, 0, 0, 0, 0, 0, 0, 0, 0, 0, 0, 0, 0⟩

def setPart (self : PartsState) (request : XPartEquipRequest) : PartsState :=
  if request.itemCategory = 63 then
    { self with engine := request.itemId, engineGrade := request.grade, engineValue := request.partsValue }
  else if request.itemCategory = 64 then
    { self with handle := request.itemId, handleGrade := request.grade, handleValue := request.partsValue }
  else if request.itemCategory = 65 then
    { self with wheel := request.itemId, wheelGrade := request.grade, wheelValue := request.partsValue }
  else if request.itemCategory = 66 then
    { self with booster := request.itemId, boosterGrade := request.grade, boosterValue := request.partsValue }
  else if request.itemCategory = 68 then { self with coating := request.itemId }
  else if request.itemCategory = 69 then { self with tailLamp := request.itemId }
  else self

def asException (self : PartsState) : PartsExcRecord :=
  ⟨self.id, normalizeKartSerial self.id self.serial, self.engine, self.engineGrade, self.engineValue, self.handle,
    self.handleGrade, self.handleValue, self.wheel, self.wheelGrade, self.wheelValue, self.booster, self.boosterGrade,
    self.boosterValue, self.coating, self.tailLamp⟩

@[simp] theorem key_setPart (self : PartsState) (request : XPartEquipRequest) : (self.setPart request).key = self.key := by
  unfold setPart
  repeat' split
  all_goals rfl

/-- Replacing a part of a state replaces it in what the state shows. -/
theorem asException_setPart (self : PartsState) (request : XPartEquipRequest) :
    (self.setPart request).asException = self.asException.withPart request := by
  unfold setPart PartsExcRecord.withPart
  repeat' split
  all_goals rfl

end PartsState

@[simp] theorem PartsExcRecord.key_withPart (self : PartsExcRecord) (request : XPartEquipRequest) :
    (self.withPart request).key = self.key := by
  unfold withPart
  repeat' split
  all_goals rfl

def parseUserPartsStates (file : Option (Sidecar PartsState)) : Except EquipmentStateError (List PartsState) :=
  Sidecar.read "parts" file

def mergePartsRecords (merged : List PartsExcRecord) : List PartsState → Except EquipmentStateError (List PartsExcRecord)
  | [] => .ok merged
  | user :: rest =>
    let record := user.asException
    match lookup PartsExcRecord.key record.key merged with
    | some _ => mergePartsRecords (put PartsExcRecord.key record.key record merged) rest
    | none =>
      if maxEquipmentRecords ≤ merged.length then .error (.tooManyRecords "merged parts" maxEquipmentRecords)
      else mergePartsRecords (merged ++ [record]) rest

/-- The parts that are shown: the rider's records over the global ones. -/
def loadMergedPartsRecords (global : List PartsExcRecord) (file : Option (Sidecar PartsState)) :
    Except EquipmentStateError (List PartsExcRecord) := do
  let user ← parseUserPartsStates file
  mergePartsRecords global user

def validateXPartRequest (request : XPartEquipRequest) : Except EquipmentStateError Unit := do
  ensure (63 ≤ request.itemCategory ∧ request.itemCategory ≤ 66 ∨ request.itemCategory = 68 ∨ request.itemCategory = 69)
    (.invalidXPartCategory request.itemCategory)
  ensure (¬ request.itemId < 0) (.invalidXPartItem request.itemId)
  ensure (¬ request.kartId ≤ 0) (.invalidXPartKart request.kartId)

/-- The kart of a request, its serial normalized. -/
def XPartEquipRequest.key (request : XPartEquipRequest) : KartKey :=
  (request.kartId, normalizeKartSerial request.kartId request.kartSerial)

/-- `equip_x_part_capability`, given the length of the text of the records. -/
def equipXPart (textLength : List PartsState → Nat) (file : Option (Sidecar PartsState)) (request : XPartEquipRequest) :
    Except EquipmentStateError (PartsExcRecord × Sidecar PartsState) := do
  validateXPartRequest request
  let states ← parseUserPartsStates file
  let state ← findOrInsert "parts" PartsState.key request.key (.fresh request.key) states
  let next := state.setPart request
  let written ← Sidecar.write textLength (put PartsState.key request.key next states)
  .ok (next.asException, written)

/-! ## The plant file -/

theorem PlantState.normalized_normalized (self : PlantState) : self.normalized.normalized = self.normalized := by
  simp [normalized]

/-- The plant file is read in order, and bounded. -/
theorem of_parsePlantStates {file : Option (Sidecar PlantState)} {states : List PlantState}
    (h : parsePlantStates file = .ok states) :
    Canonical PlantState.normalized PlantState.key states ∧ states.length ≤ maxEquipmentRecords := by
  obtain ⟨records, hread, hrest⟩ := bind_eq_ok.1 h
  obtain rfl := ok.inj hrest
  refine ⟨Canonical.of_deduplicate PlantState.normalized_normalized records, ?_⟩
  have hlength := length_collect_le PlantState.key [] (records.map PlantState.normalized)
  rw [List.length_nil, Nat.zero_add, List.length_map] at hlength
  exact Nat.le_trans hlength (Sidecar.length_of_read hread)

/-- A plant file in order is read as it is. -/
theorem parsePlantStates_of_canonical {file : Sidecar PlantState} {states : List PlantState}
    (h : Canonical PlantState.normalized PlantState.key states) (hread : Sidecar.read "plant" (some file) = .ok states) :
    parsePlantStates (some file) = .ok states := by
  refine bind_eq_ok.2 ⟨states, hread, ?_⟩
  rw [h.deduplicate_eq]

/-- The record of a state in order has the state's key. -/
theorem PlantState.key_asException {self : PlantState} (h : self.normalized = self) : self.asException.key = self.key := by
  have hserial : normalizeKartSerial self.id self.serial = self.serial := congrArg PlantState.serial h
  rw [PlantExcRecord.key, PlantState.key, asException, hserial]

/-- The normalized key of a request is the key of a state in order. -/
theorem PlantState.normalized_of_key {self : PlantState} {request : PlantPartEquipRequest} (h : self.key = request.key) :
    self.normalized = self := by
  obtain ⟨hid, hserial⟩ := Prod.mk.inj h
  have hsame : normalizeKartSerial self.id self.serial = self.serial := by
    rw [hserial, hid, normalizeKartSerial_idem]
  rw [normalized, hsame]

/-- A fresh state shows a kart without parts. -/
theorem PlantState.asException_fresh (request : PlantPartEquipRequest) :
    (PlantState.fresh request.key).asException = .blank request.key := by
  simp [fresh, asException, PlantExcRecord.blank, PlantPartEquipRequest.key]

/-- A plant part is replaced in the record of its kart only. -/
theorem equipPlantPart_changesOnly {textLength : List PlantState → Nat} {file : Option (Sidecar PlantState)}
    {request : PlantPartEquipRequest} {old : List PlantExcRecord} {record : PlantExcRecord} {written : Sidecar PlantState}
    (hold : loadPlantRecords file = .ok old) (h : equipPlantPart textLength file request = .ok (record, written)) :
    ∃ new, loadPlantRecords (some written) = .ok new ∧
      ChangesOnly PlantExcRecord.key request.key (.blank request.key) (PlantExcRecord.withPart request) old new := by
  obtain ⟨-, -, hrest⟩ := bind_eq_ok.1 h
  obtain ⟨states, hparse, hrest⟩ := bind_eq_ok.1 hrest
  obtain ⟨state, hfind, hrest⟩ := bind_eq_ok.1 hrest
  obtain ⟨file', hwrite, hrest⟩ := bind_eq_ok.1 hrest
  obtain ⟨rfl, rfl⟩ := Prod.mk.inj (ok.inj hrest)
  obtain ⟨states', hparse', hrest'⟩ := bind_eq_ok.1 hold
  obtain rfl := ok.inj (hparse.symm.trans hparse')
  obtain rfl := ok.inj hrest'
  obtain ⟨hcanonical, hlength⟩ := of_parsePlantStates hparse
  have hnextkey : (state.setPart request.itemCategory request.itemId).key = request.key := by
    rw [PlantState.key_setPart]
    exact key_of_findOrInsert hfind rfl
  have hstate := eq_of_findOrInsert hfind
  have hroom := length_put_of_findOrInsert hfind hlength hnextkey
  have hput := hcanonical.put hnextkey (PlantState.normalized_of_key hnextkey)
  obtain ⟨-, hread⟩ := Sidecar.of_write "plant" hwrite hroom
  have hkeys : ∀ s ∈ states, s.asException.key = s.key :=
    fun s hs => PlantState.key_asException (hcanonical.normalized s hs)
  have hkeysPut : ∀ s ∈ put PlantState.key request.key (state.setPart request.itemCategory request.itemId) states,
      s.asException.key = s.key :=
    fun s hs => PlantState.key_asException (hput.normalized s hs)
  refine ⟨_, bind_eq_ok.2 ⟨_, parsePlantStates_of_canonical hput hread, rfl⟩, ?_, ?_⟩
  · rw [shown_map PlantState.key _ hkeysPut,
      shown_put_self _ hnextkey (length_shown_le_one _ hcanonical.nodup _),
      lookup_map PlantState.key _ hkeys, List.map_singleton, PlantState.asException_setPart, hstate]
    rcases lookup PlantState.key request.key states with _ | found
    · exact congrArg (fun r => [PlantExcRecord.withPart request r]) (PlantState.asException_fresh request)
    · rfl
  · intro other hother
    rw [shown_map PlantState.key _ hkeysPut, shown_map PlantState.key _ hkeys,
      shown_put_of_ne _ hnextkey hother]

/-! ## The X-parts file -/

/-- The merge collects the rider's records over the global ones, when the result is bounded. -/
theorem mergePartsRecords_eq {merged : List PartsExcRecord} (hmerged : merged.length ≤ maxEquipmentRecords)
    (user : List PartsState) :
    mergePartsRecords merged user =
      if (collect PartsExcRecord.key merged (user.map PartsState.asException)).length ≤ maxEquipmentRecords
      then .ok (collect PartsExcRecord.key merged (user.map PartsState.asException))
      else .error (.tooManyRecords "merged parts" maxEquipmentRecords) := by
  induction user generalizing merged with
  | nil =>
    rw [mergePartsRecords, List.map_nil, collect_nil, if_pos hmerged]
  | cons state user ih =>
    rw [mergePartsRecords, List.map_cons, collect_cons]
    have hput := length_put PartsExcRecord.key (b := state.asException) rfl merged
    rcases hfind : lookup PartsExcRecord.key state.asException.key merged with _ | found
    · have hnone := (lookup_eq_none_iff _).1 hfind
      rw [put_of_notMem _ _ hnone] at hput ⊢
      simp only []
      by_cases hfull : maxEquipmentRecords ≤ merged.length
      · have hlong := length_le_length_collect PartsExcRecord.key (merged ++ [state.asException])
          (user.map PartsState.asException)
        rw [List.length_append, List.length_singleton] at hlong
        rw [if_pos hfull, if_neg (by omega)]
      · rw [if_neg hfull]
        refine ih ?_
        rw [List.length_append, List.length_singleton]
        omega
    · have hmem : state.asException.key ∈ merged.map PartsExcRecord.key :=
        List.mem_map.2 ⟨found, mem_of_lookup _ hfind, key_of_lookup _ hfind⟩
      rw [if_pos hmem] at hput
      exact ih (by omega)

/-- The record of a state with the key of a request has that key. -/
theorem PartsState.key_asException {self : PartsState} {request : XPartEquipRequest} (h : self.key = request.key) :
    self.asException.key = request.key := by
  obtain ⟨hid, hserial⟩ := Prod.mk.inj h
  rw [PartsExcRecord.key, asException, hid, hserial, normalizeKartSerial_idem]
  rfl

/-- A fresh state shows a kart without parts. -/
theorem PartsState.asException_fresh (request : XPartEquipRequest) :
    (PartsState.fresh request.key).asException = .blank request.key := by
  simp [fresh, asException, PartsExcRecord.blank, XPartEquipRequest.key]

/-- The part of a request reaches what is shown: after the first record that has the kart's id and normalized serial as they are,
none shows the kart, or the one that shows it has the part already; and when there is no such record, none shows the kart and the
shown list has room, or the one that shows it has nothing else. -/
def ReachesShown (shown : List PartsExcRecord) (user : List PartsState) (request : XPartEquipRequest) : Prop :=
  match user.dropWhile (fun state => decide (state.key ≠ request.key)) with
  | _ :: after =>
    match lookupLast PartsExcRecord.key request.key (after.map PartsState.asException) with
    | none => True
    | some last => last.withPart request = last
  | [] =>
    match lookup PartsExcRecord.key request.key shown with
    | none => shown.length < maxEquipmentRecords
    | some last => last.withPart request = (PartsExcRecord.blank request.key).withPart request

section XParts

variable {global : List PartsExcRecord} {user : List PartsState} {request : XPartEquipRequest} {old : List PartsExcRecord}

/-- What is shown of a kart without a global record is its last record of the rider. -/
theorem lookup_merged (hnone : ∀ record ∈ global, record.key ≠ request.key) (l : List PartsExcRecord) :
    lookup PartsExcRecord.key request.key (collect PartsExcRecord.key global l) =
      lookupLast PartsExcRecord.key request.key l := by
  rw [lookup_eq_head_shown, shown_collect_last _ hnone]
  cases lookupLast PartsExcRecord.key request.key l <;> rfl

/-- The merge of a list that shows the same of other karts, and one record of the kart. -/
theorem changesOnly_merged (hnone : ∀ record ∈ global, record.key ≠ request.key) {l l' : List PartsExcRecord}
    {last : PartsExcRecord} (hlast : lookupLast PartsExcRecord.key request.key l' = some last)
    (hothers : ∀ other, other ≠ request.key → shown PartsExcRecord.key other l' = shown PartsExcRecord.key other l) :
    ChangesOnly PartsExcRecord.key request.key (.blank request.key) (PartsExcRecord.withPart request)
        (collect PartsExcRecord.key global l) (collect PartsExcRecord.key global l') ↔
      ((lookupLast PartsExcRecord.key request.key l).getD (.blank request.key)).withPart request = last := by
  have hshown : ∀ other, other ≠ request.key →
      shown PartsExcRecord.key other (collect PartsExcRecord.key global l') =
        shown PartsExcRecord.key other (collect PartsExcRecord.key global l) := by
    intro other hother
    rw [shown_collect, shown_collect, hothers other hother]
  unfold ChangesOnly
  rw [lookup_merged hnone, shown_collect_last _ hnone, hlast]
  constructor
  · rintro ⟨hsame, -⟩
    exact (List.cons.inj hsame).1.symm
  · intro hsame
    exact ⟨by rw [hsame]; rfl, hshown⟩

/-- Merging after the record of the kart is changed. -/
theorem merged_changed_iff (hglobal : global.length ≤ maxEquipmentRecords)
    (hnone : ∀ record ∈ global, record.key ≠ request.key) (hold : mergePartsRecords global user = .ok old) {state : PartsState}
    (hstate : state = (lookup PartsState.key request.key user).getD (.fresh request.key)) :
    (∃ new, mergePartsRecords global (put PartsState.key request.key (state.setPart request) user) = .ok new ∧
        ChangesOnly PartsExcRecord.key request.key (.blank request.key) (PartsExcRecord.withPart request) old new) ↔
      ReachesShown old user request := by
  rw [mergePartsRecords_eq hglobal] at hold
  by_cases hbounded : (collect PartsExcRecord.key global (user.map PartsState.asException)).length ≤ maxEquipmentRecords
  · rw [if_pos hbounded] at hold
    obtain rfl := ok.inj hold
    rw [mergePartsRecords_eq hglobal]
    unfold ReachesShown
    rcases split_first PartsState.key request.key user with ⟨front, found, back, rfl, hfront, hfound⟩ | hfresh
    · have hdrop : (front ++ found :: back).dropWhile (fun s => decide (s.key ≠ request.key)) = found :: back := by
        rw [List.dropWhile_append_of_pos (fun s hs => by simpa using hfront s hs),
          List.dropWhile_cons_of_neg (by simpa using hfound)]
      have hlookup : lookup PartsState.key request.key (front ++ found :: back) = some found := by
        rw [lookup, List.find?_append, List.find?_eq_none.2 (fun s hs => by simpa using hfront s hs),
          List.find?_cons_of_pos (by simpa using hfound)]
        rfl
      rw [hlookup, Option.getD_some] at hstate
      subst hstate
      have hkey := PartsState.key_asException hfound
      have hkey' : (state.asException.withPart request).key = request.key := by
        rw [PartsExcRecord.key_withPart, hkey]
      simp only [hdrop, put_of_mem _ (state.setPart request) hfront hfound, List.map_append, List.map_cons,
        PartsState.asException_setPart]
      rw [List.map_append, List.map_cons] at hbounded
      generalize front.map PartsState.asException = before at hbounded ⊢
      generalize back.map PartsState.asException = after at hbounded ⊢
      have hlength : (collect PartsExcRecord.key global
          (before ++ state.asException.withPart request :: after)).length ≤ maxEquipmentRecords := by
        have hkeys : (before ++ state.asException.withPart request :: after).map PartsExcRecord.key =
            (before ++ state.asException :: after).map PartsExcRecord.key := by simp
        have hsame := congrArg List.length (map_key_collect_congr PartsExcRecord.key (refl (global.map _)) hkeys)
        rw [List.length_map, List.length_map] at hsame
        omega
      have hothers : ∀ other, other ≠ request.key →
          shown PartsExcRecord.key other (before ++ state.asException.withPart request :: after) =
            shown PartsExcRecord.key other (before ++ state.asException :: after) := by
        intro other hother
        simp [shown, hkey, Ne.symm hother]
      have hiff := changesOnly_merged hnone (lookupLast_append_cons PartsExcRecord.key hkey' before after) hothers
      rw [lookupLast_append_cons PartsExcRecord.key hkey, Option.getD_some] at hiff
      rw [if_pos hlength]
      simp only [ok.injEq, exists_eq_left']
      rw [hiff]
      rcases lookupLast PartsExcRecord.key request.key after with _ | last
      · simp
      · rfl
    · have hdrop : user.dropWhile (fun s => decide (s.key ≠ request.key)) = [] :=
        List.dropWhile_eq_nil_iff.2 (fun s hs => by simpa using hfresh s hs)
      rw [(lookup_eq_none_iff PartsState.key).2 hfresh, Option.getD_none] at hstate
      subst hstate
      have hnext : ((PartsState.fresh request.key).setPart request).asException =
          (PartsExcRecord.blank request.key).withPart request := by
        rw [PartsState.asException_setPart, PartsState.asException_fresh]
      have hkey : ((PartsExcRecord.blank request.key).withPart request).key = request.key :=
        PartsExcRecord.key_withPart _ _
      simp only [hdrop, put_of_notMem _ _ hfresh, List.map_append, List.map_singleton, hnext]
      rw [lookup_merged hnone]
      generalize user.map PartsState.asException = records at hbounded ⊢
      have hothers : ∀ other, other ≠ request.key →
          shown PartsExcRecord.key other (records ++ [(PartsExcRecord.blank request.key).withPart request]) =
            shown PartsExcRecord.key other records := by
        intro other hother
        simp [shown, hkey, Ne.symm hother]
      have hiff := changesOnly_merged hnone (lookupLast_append_cons PartsExcRecord.key hkey records []) hothers
      have hput : collect PartsExcRecord.key global
          (records ++ [(PartsExcRecord.blank request.key).withPart request]) = put PartsExcRecord.key request.key
            ((PartsExcRecord.blank request.key).withPart request) (collect PartsExcRecord.key global records) := by
        rw [collect_append, collect_cons, collect_nil, hkey]
      have hlength := length_put PartsExcRecord.key hkey (collect PartsExcRecord.key global records)
      rw [← hput] at hlength
      have hshown := lookup_merged hnone records
      rcases hlast : lookupLast PartsExcRecord.key request.key records with _ | last
      · have hmem : request.key ∉ (collect PartsExcRecord.key global records).map PartsExcRecord.key := by
          intro hmem
          obtain ⟨record, hrecord, hrecordkey⟩ := List.mem_map.1 hmem
          rw [hlast, lookup_eq_none_iff] at hshown
          exact hshown record hrecord hrecordkey
        rw [if_neg hmem] at hlength
        rw [hlast, Option.getD_none] at hiff
        by_cases hroom : (collect PartsExcRecord.key global records).length < maxEquipmentRecords
        · rw [if_pos (by omega)]
          simp only [ok.injEq, exists_eq_left', hroom, iff_true]
          exact hiff.2 rfl
        · rw [if_neg (by omega)]
          simp [hroom]
      · have hmem : request.key ∈ (collect PartsExcRecord.key global records).map PartsExcRecord.key := by
          rw [hlast] at hshown
          exact List.mem_map.2 ⟨last, mem_of_lookup _ hshown, key_of_lookup _ hshown⟩
        rw [if_pos hmem] at hlength
        rw [hlast, Option.getD_some] at hiff
        rw [if_pos (by omega)]
        simp only [ok.injEq, exists_eq_left']
        exact hiff
  · rw [if_neg hbounded] at hold
    exact absurd hold (by simp)

end XParts

/-- A plant part is always replaced in the record of its kart, and in no other. An X part of a kart without a global record is,
exactly when the record it is put in is the one that is shown, or the difference does not show; no other kart's record changes. -/
theorem equip_changesOnly_iff (plantLength : List PlantState → Nat) (partsLength : List PartsState → Nat) :
    (∀ (file : Option (Sidecar PlantState)) (request : PlantPartEquipRequest) (old : List PlantExcRecord)
        (record : PlantExcRecord) (written : Sidecar PlantState),
      loadPlantRecords file = .ok old → equipPlantPart plantLength file request = .ok (record, written) →
      ∃ new, loadPlantRecords (some written) = .ok new ∧
        ChangesOnly PlantExcRecord.key request.key (.blank request.key) (PlantExcRecord.withPart request) old new) ∧
    (∀ (global : List PartsExcRecord) (file : Option (Sidecar PartsState)) (request : XPartEquipRequest)
        (user : List PartsState) (old : List PartsExcRecord) (record : PartsExcRecord) (written : Sidecar PartsState),
      global.length ≤ maxEquipmentRecords → (∀ record ∈ global, record.key ≠ request.key) →
      parseUserPartsStates file = .ok user → loadMergedPartsRecords global file = .ok old →
      equipXPart partsLength file request = .ok (record, written) →
      ((∃ new, loadMergedPartsRecords global (some written) = .ok new ∧
          ChangesOnly PartsExcRecord.key request.key (.blank request.key) (PartsExcRecord.withPart request) old new) ↔
        ReachesShown old user request)) := by
  refine ⟨?_, ?_⟩
  · intro file request old record written hold h
    exact equipPlantPart_changesOnly hold h
  · intro global file request user old record written hglobal hnone huser hold h
    obtain ⟨-, -, hrest⟩ := bind_eq_ok.1 h
    obtain ⟨states, hparse, hrest⟩ := bind_eq_ok.1 hrest
    obtain ⟨state, hfind, hrest⟩ := bind_eq_ok.1 hrest
    obtain ⟨written', hwrite, hrest⟩ := bind_eq_ok.1 hrest
    obtain ⟨rfl, rfl⟩ := Prod.mk.inj (ok.inj hrest)
    obtain rfl := ok.inj (huser.symm.trans hparse)
    obtain ⟨user', huser', hmerge⟩ := bind_eq_ok.1 hold
    obtain rfl := ok.inj (huser.symm.trans huser')
    have hnextkey : (state.setPart request).key = request.key := by
      rw [PartsState.key_setPart]
      exact key_of_findOrInsert hfind rfl
    have hroom := length_put_of_findOrInsert hfind (Sidecar.length_of_read hparse) hnextkey
    obtain ⟨-, hread⟩ := Sidecar.of_write "parts" hwrite hroom
    have hload : ∀ new, loadMergedPartsRecords global (some written') = .ok new ↔
        mergePartsRecords global (put PartsState.key request.key (state.setPart request) user) = .ok new := by
      intro new
      simp only [loadMergedPartsRecords, parseUserPartsStates, hread]
      rfl
    simp only [hload]
    exact merged_changed_iff hglobal hnone hmerge (eq_of_findOrInsert hfind)

/-- A kart's record with an engine, stored with a serial. -/
def engineState (serial : Int16) : PartsState := ⟨1401, serial, 10, 1, 1053, 0, 0, 0, 0, 0, 0, 0, 0, 0, 0, 0⟩

/-- A handle for the kart. -/
def handleRequest : XPartEquipRequest := ⟨1401, 0, 64, 20, 2, 1005⟩

/-- A handle is put beside the engine of a kart that is stored with its serial, and reaches what is shown. -/
theorem equip_changesOnly_iff_handle :
    ReachesShown [(engineState 1).asException] [engineState 1] handleRequest ∧
      ∃ new, loadMergedPartsRecords [] (some ⟨329, [(engineState 1).setPart handleRequest]⟩) = .ok new ∧
        ChangesOnly PartsExcRecord.key (1401, 1) (.blank (1401, 1)) (PartsExcRecord.withPart handleRequest)
          [(engineState 1).asException] new := by
  have hshown : ReachesShown [(engineState 1).asException] [engineState 1] handleRequest := trivial
  refine ⟨hshown, ((equip_changesOnly_iff (fun _ => 329) (fun _ => 329)).2 [] (some ⟨325, [engineState 1]⟩) handleRequest
    [engineState 1] [(engineState 1).asException] ((engineState 1).setPart handleRequest).asException
    ⟨329, [(engineState 1).setPart handleRequest]⟩ (by decide) (by simp) rfl rfl rfl).2 hshown⟩

/-- A kart that is stored without a serial loses its engine to a handle. -/
theorem equip_changesOnly_false :
    ¬ ∀ (global : List PartsExcRecord) (file : Option (Sidecar PartsState)) (request : XPartEquipRequest)
        (old : List PartsExcRecord) (record : PartsExcRecord) (written : Sidecar PartsState),
      global.length ≤ maxEquipmentRecords → (∀ record ∈ global, record.key ≠ request.key) →
      loadMergedPartsRecords global file = .ok old → equipXPart (fun _ => 647) file request = .ok (record, written) →
      ∃ new, loadMergedPartsRecords global (some written) = .ok new ∧
        ChangesOnly PartsExcRecord.key request.key (.blank request.key) (PartsExcRecord.withPart request) old new := by
  intro h
  obtain ⟨new, hnew, hchanges, -⟩ := h [] (some ⟨325, [engineState 0]⟩) handleRequest [(engineState 0).asException]
    ((PartsState.fresh (1401, 1)).setPart handleRequest).asException
    ⟨647, [engineState 0, (PartsState.fresh (1401, 1)).setPart handleRequest]⟩ (by decide) (by simp) rfl rfl
  have hlost : loadMergedPartsRecords [] (some ⟨647, [engineState 0, (PartsState.fresh (1401, 1)).setPart handleRequest]⟩) =
      .ok [((PartsState.fresh (1401, 1)).setPart handleRequest).asException] := rfl
  obtain rfl := ok.inj (hlost.symm.trans hnew)
  exact absurd hchanges (by decide +kernel)

end P5136
