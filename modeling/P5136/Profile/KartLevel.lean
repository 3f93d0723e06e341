import P5136.Profile.EquippedParts

/-!
# Kart levels

A kart of grade five has 35 points to put into four levels of at most ten each. Upgrading, adding points, clearing and changing
the effect each read the level file, change the record of one kart and write the file back.
-/

namespace P5136

open Checks Keyed Checked List Except

structure KartLevelExcRecord where
  id : Int16
  serial : Int16
  grade : Int16
  points : Int16
  level1 : Int16
  level2 : Int16
  level3 : Int16
  level4 : Int16
  effect : Int16
deriving DecidableEq

structure LevelState where
  id : Int16
  serial : Int16
  grade : Int16
  points : Int16
  level1 : Int16
  level2 : Int16
  level3 : Int16
  level4 : Int16
  effect : Int16
deriving DecidableEq

/-- The points that are added to the four levels. -/
structure LevelAdditions where
  level1 : Int16
  level2 : Int16
  level3 : Int16
  level4 : Int16
deriving DecidableEq

namespace LevelState

/-- The kart of a record as it is stored. -/
def key (self : LevelState) : KartKey := (self.id, self.serial)

/-- `LevelState::default` of a kart. -/
def fresh (k : KartKey) : LevelState := ⟨k.1, k.2, 0, 0, 0, 0, 0, 0, 0⟩

def asException (self : LevelState) : KartLevelExcRecord :=
  ⟨self.id, normalizeKartSerial self.id self.serial, self.grade, self.points, self.level1, self.level2, self.level3,
    self.level4, self.effect⟩

/-- The serial of a record is normalized. -/
def normalized (self : LevelState) : LevelState := { self with serial := normalizeKartSerial self.id self.serial }

/-- The four levels. -/
def levels (self : LevelState) : List Int16 := [self.level1, self.level2, self.level3, self.level4]

end LevelState

/-- The sum of the levels. -/
def allocate (levels : List Int16) : Except EquipmentStateError Int16 :=
  orElse (levels.foldlM addInt16 0) .kartLevelPointOverflow

/-- A level is in 0..=10. -/
def checkLevel (slot : Nat) (level : Int16) : Except EquipmentStateError Unit :=
  ensure (0 ≤ level ∧ level ≤ 10) (.invalidKartLevelPoint slot level)

def validateLevelState (state : LevelState) : Except EquipmentStateError Unit := do
  ensure (¬ state.id ≤ 0) (.invalidKartLevelKart state.id)
  ensure (0 ≤ state.points ∧ state.points ≤ 35) (.invalidKartLevelRemainingPoints state.points)
  checkLevel 1 state.level1
  checkLevel 2 state.level2
  checkLevel 3 state.level3
  checkLevel 4 state.level4
  let allocated ← allocate state.levels
  ensure (¬ 35 < allocated) (.kartLevelPointBudgetExceeded allocated)

def parseLevelStates (file : Option (Sidecar LevelState)) : Except EquipmentStateError (List LevelState) := do
  let states ← Sidecar.read "kart level" file
  all validateLevelState states
  .ok (deduplicateLastByKey (states.map LevelState.normalized) LevelState.key)

/-- `mutate_level_state_capability`, given the length of the text of the records. -/
def mutateLevelState (textLength : List LevelState → Nat) (file : Option (Sidecar LevelState)) (kartId kartSerial : Int16)
    (mutation : LevelState → Bool → Except EquipmentStateError LevelState) :
    Except EquipmentStateError (KartLevelExcRecord × Sidecar LevelState) := do
  ensure (¬ kartId ≤ 0) (.invalidKartLevelKart kartId)
  let k := (kartId, normalizeKartSerial kartId kartSerial)
  let states ← parseLevelStates file
  let state ← findOrInsert "kart level" LevelState.key k (.fresh k) states
  let next ← mutation state (lookup LevelState.key k states).isSome
  let written ← Sidecar.write textLength (put LevelState.key k next states)
  .ok (next.asException, written)

/-- The points that are left of the budget. -/
def remainingPoints (levels : List Int16) : Except EquipmentStateError Int16 := do
  let allocated ← allocate levels
  orElse (subInt16 35 allocated) (.kartLevelPointBudgetExceeded allocated)

/-- A level with points added. -/
def addLevel (slot : Nat) (current addition : Int16) : Except EquipmentStateError Int16 := do
  let next ← orElse (addInt16 current addition) .kartLevelPointOverflow
  checkLevel slot next
  .ok next

/-- The mutation of `upgrade_kart_level_capability`. -/
def upgradeLevelState (state : LevelState) (existed : Bool) : Except EquipmentStateError LevelState :=
  if existed = false ∨ state.grade ≠ 5 then
    .ok { state with grade := 5, points := 35, level1 := 0, level2 := 0, level3 := 0, level4 := 0 }
  else do
    let points ← remainingPoints state.levels
    .ok { state with points := points }

/-- The mutation of `update_kart_level_points_capability`. -/
def updateLevelStatePoints (additions : LevelAdditions) (original : LevelState) (existed : Bool) :
    Except EquipmentStateError LevelState := do
  let state := if existed then original else { original with grade := 5, points := 35 }
  let next1 ← addLevel 1 state.level1 additions.level1
  let next2 ← addLevel 2 state.level2 additions.level2
  let next3 ← addLevel 3 state.level3 additions.level3
  let next4 ← addLevel 4 state.level4 additions.level4
  let points ← remainingPoints [next1, next2, next3, next4]
  .ok { state with points := points, level1 := next1, level2 := next2, level3 := next3, level4 := next4 }

/-- The mutation of `clear_kart_level_points_capability`. -/
def clearLevelState (state : LevelState) (_existed : Bool) : Except EquipmentStateError LevelState :=
  .ok { state with grade := 5, points := 35, level1 := 0, level2 := 0, level3 := 0, level4 := 0, effect := 0 }

/-- The mutation of `update_kart_level_effect_capability`. -/
def updateLevelStateEffect (effect : Int16) (original : LevelState) (existed : Bool) : Except EquipmentStateError LevelState :=
  let state := if existed then original else { original with grade := 5, points := 35 }
  .ok { state with effect := effect }

/-- The operations on a kart's level. -/
inductive KartLevelOperation where
  | upgrade
  | updatePoints (additions : LevelAdditions)
  | clear
  | updateEffect (effect : Int16)
deriving DecidableEq

/-- The mutation of an operation. -/
def KartLevelOperation.mutation : KartLevelOperation → LevelState → Bool → Except EquipmentStateError LevelState
  | .upgrade => upgradeLevelState
  | .updatePoints additions => updateLevelStatePoints additions
  | .clear => clearLevelState
  | .updateEffect effect => updateLevelStateEffect effect

/-- An operation on one kart. -/
structure KartLevelRequest where
  kartId : Int16
  kartSerial : Int16
  operation : KartLevelOperation
deriving DecidableEq

namespace KartLevelRequest

/-- The kart of a request, its serial normalized. -/
def key (self : KartLevelRequest) : KartKey := (self.kartId, normalizeKartSerial self.kartId self.kartSerial)

/-- `upgrade_kart_level_capability`, `update_kart_level_points_capability`, `clear_kart_level_points_capability` and
`update_kart_level_effect_capability`. -/
def perform (textLength : List LevelState → Nat) (self : KartLevelRequest) (file : Option (Sidecar LevelState)) :
    Except EquipmentStateError (KartLevelExcRecord × Sidecar LevelState) :=
  mutateLevelState textLength file self.kartId self.kartSerial self.operation.mutation

/-- The file after a request: the one that was written, or the one from before when the request failed. -/
def fileAfter (textLength : List LevelState → Nat) (file : Option (Sidecar LevelState)) (self : KartLevelRequest) :
    Option (Sidecar LevelState) :=
  match self.perform textLength file with
  | .ok (_, written) => some written
  | .error _ => file

end KartLevelRequest

/-- The file after requests. -/
def kartLevelsAfter (textLength : List LevelState → Nat) (file : Option (Sidecar LevelState)) (requests : List KartLevelRequest) :
    Option (Sidecar LevelState) :=
  requests.foldl (KartLevelRequest.fileAfter textLength) file

/-! ## The budget -/

namespace LevelState

/-- The points in the levels. -/
def allocated (self : LevelState) : Int :=
  self.level1.toInt + self.level2.toInt + self.level3.toInt + self.level4.toInt

/-- Each level is in 0..=10. -/
def LevelsBounded (self : LevelState) : Prop := ∀ level ∈ self.levels, 0 ≤ level.toInt ∧ level.toInt ≤ 10

/-- What the loader accepts. -/
structure Valid (state : LevelState) : Prop where
  id : 0 < state.id.toInt
  points : 0 ≤ state.points.toInt ∧ state.points.toInt ≤ 35
  levels : state.LevelsBounded
  allocated : state.allocated ≤ 35

/-- The budget of a kart of grade five. -/
structure Budgeted (state : LevelState) : Prop where
  grade : state.grade = 5
  levels : state.LevelsBounded
  points : state.points.toInt = 35 - state.allocated

end LevelState

/-- A sum of levels is their sum. -/
theorem toInt_of_allocate {a b c d total : Int16} (h : allocate [a, b, c, d] = .ok total) :
    total.toInt = a.toInt + b.toInt + c.toInt + d.toInt := by
  simp only [allocate, orElse_eq_ok, foldlM_cons, foldlM_nil, Option.bind_eq_bind, Option.bind_eq_some_iff,
    Option.pure_def, Option.some.injEq, addInt16, toInt16_eq_some, Int16.toInt_zero] at h
  obtain ⟨x, hx, y, hy, z, hz, w, hw, rfl⟩ := h
  omega

/-- Levels in 0..=10 have a sum. -/
theorem exists_allocate {a b c d : Int16} (h : ∀ level ∈ [a, b, c, d], 0 ≤ level.toInt ∧ level.toInt ≤ 10) :
    ∃ total, allocate [a, b, c, d] = .ok total := by
  have ha := h a (by simp)
  have hb := h b (by simp)
  have hc := h c (by simp)
  have hd := h d (by simp)
  have hsum : ∀ n : Int, -2 ^ 15 ≤ n → n < 2 ^ 15 → ∃ x : Int16, x.toInt = n :=
    fun n hlow hhigh => ⟨Int16.ofInt n, Int16.toInt_ofInt_of_le hlow hhigh⟩
  obtain ⟨x, hx⟩ := hsum a.toInt (by omega) (by omega)
  obtain ⟨y, hy⟩ := hsum (a.toInt + b.toInt) (by omega) (by omega)
  obtain ⟨z, hz⟩ := hsum (a.toInt + b.toInt + c.toInt) (by omega) (by omega)
  obtain ⟨w, hw⟩ := hsum (a.toInt + b.toInt + c.toInt + d.toInt) (by omega) (by omega)
  refine ⟨w, ?_⟩
  simp only [allocate, orElse_eq_ok, foldlM_cons, foldlM_nil, Option.bind_eq_bind, Option.bind_eq_some_iff,
    Option.pure_def, Option.some.injEq, addInt16, toInt16_eq_some, Int16.toInt_zero]
  exact ⟨x, by omega, y, by omega, z, by omega, w, by omega, rfl⟩

/-- What is left of the budget is the budget without the levels. -/
theorem toInt_of_remainingPoints {a b c d points : Int16} (h : remainingPoints [a, b, c, d] = .ok points) :
    points.toInt = 35 - (a.toInt + b.toInt + c.toInt + d.toInt) := by
  obtain ⟨total, htotal, hrest⟩ := bind_eq_ok.1 h
  have h35 : (35 : Int16).toInt = 35 := rfl
  rw [orElse_eq_ok, subInt16, toInt16_eq_some, h35] at hrest
  rw [hrest, toInt_of_allocate htotal]

theorem checkLevel_eq_ok {slot : Nat} {level : Int16} : checkLevel slot level = .ok () ↔ 0 ≤ level.toInt ∧ level.toInt ≤ 10 := by
  have h10 : (10 : Int16).toInt = 10 := rfl
  rw [checkLevel, ensure_eq_ok, Int16.le_iff_toInt_le, Int16.le_iff_toInt_le, Int16.toInt_zero, h10]

/-- A level with points added is their sum, in 0..=10. -/
theorem of_addLevel {slot : Nat} {current addition next : Int16} (h : addLevel slot current addition = .ok next) :
    next.toInt = current.toInt + addition.toInt ∧ 0 ≤ next.toInt ∧ next.toInt ≤ 10 := by
  obtain ⟨sum, hsum, hrest⟩ := bind_eq_ok.1 h
  obtain ⟨_, hcheck, hrest⟩ := bind_eq_ok.1 hrest
  obtain rfl := ok.inj hrest
  rw [orElse_eq_ok, addInt16, toInt16_eq_some] at hsum
  exact ⟨hsum, checkLevel_eq_ok.1 hcheck⟩

/-- The loader's checks are its acceptance. -/
theorem validateLevelState_eq_ok {state : LevelState} : validateLevelState state = .ok () ↔ state.Valid := by
  have h35 : (35 : Int16).toInt = 35 := rfl
  have hid : ¬ state.id ≤ 0 ↔ 0 < state.id.toInt := by
    rw [Int16.le_iff_toInt_le, Int16.toInt_zero]
    omega
  have hpoints : 0 ≤ state.points ∧ state.points ≤ 35 ↔ 0 ≤ state.points.toInt ∧ state.points.toInt ≤ 35 := by
    rw [Int16.le_iff_toInt_le, Int16.le_iff_toInt_le, Int16.toInt_zero, h35]
  constructor
  · intro h
    obtain ⟨_, h1, h⟩ := bind_eq_ok.1 h
    obtain ⟨_, h2, h⟩ := bind_eq_ok.1 h
    obtain ⟨_, h3, h⟩ := bind_eq_ok.1 h
    obtain ⟨_, h4, h⟩ := bind_eq_ok.1 h
    obtain ⟨_, h5, h⟩ := bind_eq_ok.1 h
    obtain ⟨_, h6, h⟩ := bind_eq_ok.1 h
    obtain ⟨total, htotal, h7⟩ := bind_eq_ok.1 h
    rw [ensure_eq_ok] at h1 h2 h7
    have hlevels : state.LevelsBounded := by
      intro level hlevel
      simp only [LevelState.levels, mem_cons, not_mem_nil, or_false] at hlevel
      rcases hlevel with rfl | rfl | rfl | rfl
      · exact checkLevel_eq_ok.1 h3
      · exact checkLevel_eq_ok.1 h4
      · exact checkLevel_eq_ok.1 h5
      · exact checkLevel_eq_ok.1 h6
    refine ⟨hid.1 h1, hpoints.1 h2, hlevels, ?_⟩
    have hsum := toInt_of_allocate htotal
    rw [Int16.lt_iff_toInt_lt, h35] at h7
    rw [LevelState.allocated]
    omega
  · intro h
    have hlevel : ∀ {level slot}, level ∈ state.levels → checkLevel slot level = .ok () :=
      fun hmem => checkLevel_eq_ok.2 (h.levels _ hmem)
    obtain ⟨total, htotal⟩ := exists_allocate h.levels
    have hsum := toInt_of_allocate htotal
    have hallocated := h.allocated
    rw [LevelState.allocated] at hallocated
    refine bind_eq_ok.2 ⟨(), ensure_eq_ok.2 (hid.2 h.id), ?_⟩
    refine bind_eq_ok.2 ⟨(), ensure_eq_ok.2 (hpoints.2 h.points), ?_⟩
    refine bind_eq_ok.2 ⟨(), hlevel (by simp [LevelState.levels]), ?_⟩
    refine bind_eq_ok.2 ⟨(), hlevel (by simp [LevelState.levels]), ?_⟩
    refine bind_eq_ok.2 ⟨(), hlevel (by simp [LevelState.levels]), ?_⟩
    refine bind_eq_ok.2 ⟨(), hlevel (by simp [LevelState.levels]), ?_⟩
    refine bind_eq_ok.2 ⟨total, htotal, ensure_eq_ok.2 ?_⟩
    rw [Int16.lt_iff_toInt_lt, h35]
    omega

/-! ## The file -/

theorem LevelState.normalized_normalized (self : LevelState) : self.normalized.normalized = self.normalized := by
  simp [normalized]

/-- A level file that the loader accepts: in order, bounded, and of valid records. -/
structure AcceptedLevels (states : List LevelState) : Prop where
  canonical : Canonical LevelState.normalized LevelState.key states
  length : states.length ≤ maxEquipmentRecords
  valid : ∀ state ∈ states, state.Valid

/-- The serial is not part of what the loader checks. -/
theorem LevelState.Valid.normalized {state : LevelState} (h : state.Valid) : state.normalized.Valid :=
  ⟨h.id, h.points, h.levels, h.allocated⟩

theorem of_parseLevelStates {file : Option (Sidecar LevelState)} {states : List LevelState}
    (h : parseLevelStates file = .ok states) : AcceptedLevels states := by
  obtain ⟨records, hread, hrest⟩ := bind_eq_ok.1 h
  obtain ⟨_, hvalid, hrest⟩ := bind_eq_ok.1 hrest
  obtain rfl := ok.inj hrest
  rw [all_eq_ok] at hvalid
  refine ⟨Canonical.of_deduplicate LevelState.normalized_normalized records, ?_, ?_⟩
  · have hlength := length_collect_le LevelState.key [] (records.map LevelState.normalized)
    rw [length_nil, Nat.zero_add, length_map] at hlength
    exact Nat.le_trans hlength (Sidecar.length_of_read hread)
  · intro state hstate
    rcases mem_collect LevelState.key hstate with hmem | hmem
    · exact absurd hmem (by simp)
    · obtain ⟨original, horiginal, rfl⟩ := mem_map.1 hmem
      exact (validateLevelState_eq_ok.1 (hvalid original horiginal)).normalized

/-- An accepted file is read as it is. -/
theorem parseLevelStates_of_accepted {file : Sidecar LevelState} {states : List LevelState} (h : AcceptedLevels states)
    (hread : Sidecar.read "kart level" (some file) = .ok states) : parseLevelStates (some file) = .ok states := by
  refine bind_eq_ok.2 ⟨states, hread, ?_⟩
  refine bind_eq_ok.2 ⟨(), all_eq_ok.2 (fun state hstate => ?_), ?_⟩
  · exact validateLevelState_eq_ok.2 (h.valid state hstate)
  · rw [h.canonical.deduplicate_eq]

/-- A valid record of a kart is put in an accepted file. -/
theorem AcceptedLevels.put {states : List LevelState} (h : AcceptedLevels states) {k : KartKey} {next : LevelState}
    (hkey : next.key = k) (hnormalized : next.normalized = next) (hvalid : next.Valid)
    (hroom : (put LevelState.key k next states).length ≤ maxEquipmentRecords) :
    AcceptedLevels (put LevelState.key k next states) := by
  refine ⟨h.canonical.put hkey hnormalized, hroom, ?_⟩
  intro state hstate
  rcases mem_put LevelState.key hstate with rfl | hstate
  · exact hvalid
  · exact h.valid state hstate

/-! ## One operation -/

/-- What an operation is applied to: a valid record, or a fresh one without points in its levels. -/
structure LevelTarget (k : KartKey) (existed : Bool) (state : LevelState) : Prop where
  key : state.key = k
  valid : existed = true → state.Valid
  fresh : existed = false → state = .fresh k

/-- An operation keeps the budget of a record: points are added to a record of grade five (or a new one), and no more than 35 in
all, when each level stays in 0..=10; the effect is changed in a record that keeps its budget (or a new one). -/
def KartLevelOperation.Fits (existed : Bool) (state : LevelState) : KartLevelOperation → Prop
  | .upgrade => True
  | .clear => True
  | .updatePoints additions =>
    (existed = true → state.grade = 5) ∧
      ((∀ pair ∈ [(state.level1, additions.level1), (state.level2, additions.level2), (state.level3, additions.level3),
          (state.level4, additions.level4)], 0 ≤ pair.1.toInt + pair.2.toInt ∧ pair.1.toInt + pair.2.toInt ≤ 10) →
        state.allocated + (additions.level1.toInt + additions.level2.toInt + additions.level3.toInt +
          additions.level4.toInt) ≤ 35)
  | .updateEffect _ => existed = true → state.Budgeted

/-- What an operation leaves: a record of the kart within its budget. -/
structure KeepsBudget (k : KartKey) (next : LevelState) : Prop where
  key : next.key = k
  budgeted : next.Budgeted
  allocated : next.allocated ≤ 35

/-- A budgeted record of a kart is valid. -/
theorem KeepsBudget.valid {k : KartKey} {next : LevelState} (h : KeepsBudget k next) (hid : 0 < k.1.toInt) : next.Valid := by
  have hkey : next.id = k.1 := congrArg Prod.fst h.key
  have hpoints := h.budgeted.points
  have hallocated := h.allocated
  have hlevels := h.budgeted.levels
  have h1 := hlevels next.level1 (by simp [LevelState.levels])
  have h2 := hlevels next.level2 (by simp [LevelState.levels])
  have h3 := hlevels next.level3 (by simp [LevelState.levels])
  have h4 := hlevels next.level4 (by simp [LevelState.levels])
  refine ⟨by rw [hkey]; exact hid, ?_, hlevels, hallocated⟩
  rw [hpoints]
  unfold LevelState.allocated at hallocated ⊢
  omega

/-- Levels without points are bounded and take nothing of the budget. -/
theorem keepsBudget_of_zero {k : KartKey} {next : LevelState} (hkey : next.key = k) (hgrade : next.grade = 5)
    (hpoints : next.points = 35) (hlevels : next.levels = [0, 0, 0, 0]) : KeepsBudget k next := by
  simp only [LevelState.levels, cons.injEq, and_true] at hlevels
  obtain ⟨h1, h2, h3, h4⟩ := hlevels
  have hallocated : next.allocated = 0 := by simp [LevelState.allocated, h1, h2, h3, h4]
  refine ⟨hkey, ⟨hgrade, ?_, ?_⟩, by omega⟩
  · intro level hlevel
    simp only [LevelState.levels, h1, h2, h3, h4, mem_cons, not_mem_nil, or_false, or_self] at hlevel
    rw [hlevel]
    decide
  · rw [hpoints, hallocated]
    rfl

/-- Upgrading leaves a budgeted record. -/
theorem keepsBudget_upgrade {k : KartKey} {existed : Bool} {state next : LevelState} (hstate : LevelTarget k existed state)
    (h : upgradeLevelState state existed = .ok next) : KeepsBudget k next := by
  unfold upgradeLevelState at h
  by_cases hfresh : existed = false ∨ state.grade ≠ 5
  · rw [if_pos hfresh] at h
    obtain rfl := ok.inj h
    exact keepsBudget_of_zero hstate.key rfl rfl rfl
  · rw [if_neg hfresh] at h
    obtain ⟨points, hpoints, hrest⟩ := bind_eq_ok.1 h
    obtain rfl := ok.inj hrest
    have hexisted : existed = true := by simpa using (not_or.1 hfresh).1
    have hgrade : state.grade = 5 := by simpa using (not_or.1 hfresh).2
    have hvalid := hstate.valid hexisted
    exact ⟨hstate.key, ⟨hgrade, hvalid.levels, toInt_of_remainingPoints hpoints⟩, hvalid.allocated⟩

/-- Upgrading a record of grade five keeps its levels. -/
theorem levels_upgrade {state next : LevelState} (hgrade : state.grade = 5) (h : upgradeLevelState state true = .ok next) :
    next.levels = state.levels := by
  unfold upgradeLevelState at h
  rw [if_neg (by simp [hgrade])] at h
  obtain ⟨points, -, hrest⟩ := bind_eq_ok.1 h
  obtain rfl := ok.inj hrest
  rfl

/-- Adding points within the budget leaves a budgeted record. -/
theorem keepsBudget_updatePoints {k : KartKey} {existed : Bool} {state next : LevelState} {additions : LevelAdditions}
    (hstate : LevelTarget k existed state) (hfits : (KartLevelOperation.updatePoints additions).Fits existed state)
    (h : updateLevelStatePoints additions state existed = .ok next) : KeepsBudget k next := by
  obtain ⟨hgrade, hbudget⟩ := hfits
  unfold updateLevelStatePoints at h
  obtain ⟨next1, hnext1, h⟩ := bind_eq_ok.1 h
  obtain ⟨next2, hnext2, h⟩ := bind_eq_ok.1 h
  obtain ⟨next3, hnext3, h⟩ := bind_eq_ok.1 h
  obtain ⟨next4, hnext4, h⟩ := bind_eq_ok.1 h
  obtain ⟨points, hpoints, h⟩ := bind_eq_ok.1 h
  obtain rfl := ok.inj h
  have hlevels : (if existed then state else { state with grade := 5, points := 35 }).levels = state.levels := by
    cases existed <;> rfl
  simp only [LevelState.levels, cons.injEq, and_true] at hlevels
  obtain ⟨h1, h2, h3, h4⟩ := hlevels
  rw [h1] at hnext1
  rw [h2] at hnext2
  rw [h3] at hnext3
  rw [h4] at hnext4
  have hadd1 := of_addLevel hnext1
  have hadd2 := of_addLevel hnext2
  have hadd3 := of_addLevel hnext3
  have hadd4 := of_addLevel hnext4
  have hsum := hbudget (by
    intro pair hpair
    simp only [mem_cons, not_mem_nil, or_false] at hpair
    rcases hpair with rfl | rfl | rfl | rfl
    · simp only []
      omega
    · simp only []
      omega
    · simp only []
      omega
    · simp only []
      omega)
  unfold LevelState.allocated at hsum
  refine ⟨?_, ⟨?_, ?_, toInt_of_remainingPoints hpoints⟩, ?_⟩
  · rw [← hstate.key]
    cases existed <;> rfl
  · rcases existed with _ | _
    · rfl
    · exact hgrade rfl
  · intro level hlevel
    simp only [LevelState.levels, mem_cons, not_mem_nil, or_false] at hlevel
    rcases hlevel with rfl | rfl | rfl | rfl
    · exact hadd1.2
    · exact hadd2.2
    · exact hadd3.2
    · exact hadd4.2
  · change next1.toInt + next2.toInt + next3.toInt + next4.toInt ≤ 35
    omega

/-- Changing the effect of a budgeted record leaves a budgeted record. -/
theorem keepsBudget_updateEffect {k : KartKey} {existed : Bool} {state next : LevelState} {effect : Int16}
    (hstate : LevelTarget k existed state) (hfits : (KartLevelOperation.updateEffect effect).Fits existed state)
    (h : updateLevelStateEffect effect state existed = .ok next) : KeepsBudget k next := by
  unfold updateLevelStateEffect at h
  obtain rfl := ok.inj h
  rcases existed with _ | _
  · have hfresh := hstate.fresh rfl
    subst hfresh
    exact keepsBudget_of_zero hstate.key rfl rfl rfl
  · have hbudgeted := hfits rfl
    exact ⟨hstate.key, ⟨hbudgeted.grade, hbudgeted.levels, hbudgeted.points⟩, (hstate.valid rfl).allocated⟩

/-- Every operation that fits leaves a budgeted record. -/
theorem keepsBudget_mutation {k : KartKey} {existed : Bool} {state next : LevelState} {operation : KartLevelOperation}
    (hstate : LevelTarget k existed state) (hfits : operation.Fits existed state)
    (h : operation.mutation state existed = .ok next) : KeepsBudget k next := by
  cases operation with
  | upgrade => exact keepsBudget_upgrade hstate h
  | updatePoints additions => exact keepsBudget_updatePoints hstate hfits h
  | clear =>
    obtain rfl := ok.inj h
    exact keepsBudget_of_zero hstate.key rfl rfl rfl
  | updateEffect effect => exact keepsBudget_updateEffect hstate hfits h

/-! ## Runs -/

/-- A request fits the file it meets. -/
def KartLevelRequest.Fits (file : Option (Sidecar LevelState)) (self : KartLevelRequest) : Prop :=
  ∀ states, parseLevelStates file = .ok states →
    self.operation.Fits (lookup LevelState.key self.key states).isSome
      ((lookup LevelState.key self.key states).getD (.fresh self.key))

/-- Each request fits the file that those before it leave. -/
def FitsRun (textLength : List LevelState → Nat) : Option (Sidecar LevelState) → List KartLevelRequest → Prop
  | _, [] => True
  | file, request :: rest => request.Fits file ∧ FitsRun textLength (request.fileAfter textLength file) rest

/-- A kart has a record of grade five. -/
def Graded (states : List LevelState) (k : KartKey) : Prop :=
  ∃ state, lookup LevelState.key k states = some state ∧ state.grade = 5

section Runs

variable {textLength : List LevelState → Nat} {file : Option (Sidecar LevelState)} {states : List LevelState}
  {request : KartLevelRequest}

/-- What a successful request does to an accepted file. -/
theorem of_perform {record : KartLevelExcRecord} {written : Sidecar LevelState} (hfile : parseLevelStates file = .ok states)
    (hfits : request.Fits file) (h : request.perform textLength file = .ok (record, written)) :
    ∃ next, KeepsBudget request.key next ∧ record = next.asException ∧
      request.operation.mutation ((lookup LevelState.key request.key states).getD (.fresh request.key))
        (lookup LevelState.key request.key states).isSome = .ok next ∧
      written.records = put LevelState.key request.key next states ∧
      parseLevelStates (some written) = .ok (put LevelState.key request.key next states) := by
  obtain ⟨_, hid, h⟩ := bind_eq_ok.1 h
  obtain ⟨states', hparse, h⟩ := bind_eq_ok.1 h
  obtain rfl := ok.inj (hfile.symm.trans hparse)
  obtain ⟨state, hfind, h⟩ := bind_eq_ok.1 h
  obtain ⟨next, hmutation, h⟩ := bind_eq_ok.1 h
  obtain ⟨written', hwrite, h⟩ := bind_eq_ok.1 h
  obtain ⟨rfl, rfl⟩ := Prod.mk.inj (ok.inj h)
  have haccepted := of_parseLevelStates hfile
  have hstate := eq_of_findOrInsert hfind
  have htarget : LevelTarget request.key (lookup LevelState.key request.key states).isSome state := by
    refine ⟨key_of_findOrInsert hfind rfl, ?_, ?_⟩
    · intro hsome
      obtain ⟨found, hfound⟩ := Option.isSome_iff_exists.1 hsome
      have heq : state = found := hstate.trans (congrArg (Option.getD · _) hfound)
      rw [heq]
      exact haccepted.valid found (mem_of_lookup _ hfound)
    · intro hnone
      rw [Option.isSome_eq_false_iff, Option.isNone_iff_eq_none] at hnone
      exact hstate.trans (congrArg (Option.getD · _) hnone)
  have hrequest := hfits states hfile
  have hkeyeq : (request.kartId, normalizeKartSerial request.kartId request.kartSerial) = request.key := rfl
  rw [hkeyeq] at hmutation hwrite hstate
  rw [← hstate] at hrequest ⊢
  have hkeeps := keepsBudget_mutation htarget hrequest hmutation
  have hpositive : 0 < request.key.1.toInt := by
    rw [ensure_eq_ok, Int16.le_iff_toInt_le, Int16.toInt_zero] at hid
    exact Int.not_le.1 hid
  have hnormalized : next.normalized = next := by
    obtain ⟨hnextid, hnextserial⟩ := Prod.mk.inj hkeeps.key
    have hsame : normalizeKartSerial next.id next.serial = next.serial := by
      rw [hnextserial, hnextid, normalizeKartSerial_idem]
    rw [LevelState.normalized, hsame]
  have hroom := length_put_of_findOrInsert hfind haccepted.length hkeeps.key
  obtain ⟨hrecords, hread⟩ := Sidecar.of_write "kart level" hwrite hroom
  exact ⟨next, hkeeps, rfl, hmutation, hrecords,
    parseLevelStates_of_accepted (haccepted.put hkeeps.key hnormalized (hkeeps.valid hpositive) hroom) hread⟩

variable (textLength) in
/-- A request keeps the file accepted and the grades of five, and gives its kart one when it succeeds. -/
theorem of_fileAfter (hfile : parseLevelStates file = .ok states) (hfits : request.Fits file) :
    ∃ states', parseLevelStates (request.fileAfter textLength file) = .ok states' ∧
      (∀ k, Graded states k → Graded states' k) ∧
      ((∃ result, request.perform textLength file = .ok result) → Graded states' request.key) := by
  unfold KartLevelRequest.fileAfter
  rcases hperform : request.perform textLength file with error | ⟨record, written⟩
  · refine ⟨states, hfile, fun k hk => hk, ?_⟩
    rintro ⟨result, hresult⟩
    exact absurd hresult (by simp)
  · obtain ⟨next, hkeeps, -, -, -, hparse⟩ := of_perform hfile hfits hperform
    have hgraded : Graded (put LevelState.key request.key next states) request.key :=
      ⟨next, lookup_put_self _ hkeeps.key _, hkeeps.budgeted.grade⟩
    refine ⟨_, hparse, ?_, fun _ => hgraded⟩
    intro k hk
    by_cases hsame : k = request.key
    · rw [hsame]
      exact hgraded
    · obtain ⟨state, hlookup, hgrade⟩ := hk
      exact ⟨state, by rw [lookup_put_of_ne _ hkeeps.key hsame, hlookup], hgrade⟩

/-- A run keeps the file accepted and the grades of five. -/
theorem of_kartLevelsAfter {requests : List KartLevelRequest} (hfile : parseLevelStates file = .ok states)
    (hfits : FitsRun textLength file requests) :
    ∃ states', parseLevelStates (kartLevelsAfter textLength file requests) = .ok states' ∧
      ∀ k, Graded states k → Graded states' k := by
  induction requests generalizing file states with
  | nil => exact ⟨states, hfile, fun k hk => hk⟩
  | cons request rest ih =>
    obtain ⟨states', hparse, hkept, -⟩ := of_fileAfter textLength hfile hfits.1
    obtain ⟨states'', hparse', hkept'⟩ := ih hparse hfits.2
    exact ⟨states'', hparse', fun k hk => hkept' k (hkept k hk)⟩

theorem fitsRun_append {first second : List KartLevelRequest} :
    FitsRun textLength file (first ++ second) ↔
      FitsRun textLength file first ∧ FitsRun textLength (kartLevelsAfter textLength file first) second := by
  induction first generalizing file with
  | nil => simp [FitsRun, kartLevelsAfter]
  | cons request rest ih => simp only [cons_append, FitsRun, ih, kartLevelsAfter, foldl_cons, and_assoc]

end Runs

/-- Points were added to the levels of a kart, successfully, in a run. -/
def UpdatedIn (textLength : List LevelState → Nat) (file : Option (Sidecar LevelState)) (done : List KartLevelRequest)
    (k : KartKey) : Prop :=
  ∃ earlier request later additions result, done = earlier ++ request :: later ∧ request.key = k ∧
    request.operation = .updatePoints additions ∧
    request.perform textLength (kartLevelsAfter textLength file earlier) = .ok result

/-- A kart whose points were added to in a run has a record of grade five. -/
theorem graded_of_updatedIn {textLength : List LevelState → Nat} {file : Option (Sidecar LevelState)} {states : List LevelState}
    {done : List KartLevelRequest} {k : KartKey} (hfile : parseLevelStates file = .ok states)
    (hfits : FitsRun textLength file done) (h : UpdatedIn textLength file done k) :
    ∃ states', parseLevelStates (kartLevelsAfter textLength file done) = .ok states' ∧ Graded states' k := by
  obtain ⟨earlier, request, later, additions, result, rfl, rfl, -, hresult⟩ := h
  rw [fitsRun_append] at hfits
  obtain ⟨middle, hmiddle, -⟩ := of_kartLevelsAfter hfile hfits.1
  obtain ⟨next, hnext, -, hgraded⟩ := of_fileAfter textLength hmiddle hfits.2.1
  obtain ⟨last, hlast, hkept⟩ := of_kartLevelsAfter hnext hfits.2.2
  refine ⟨last, ?_, hkept _ (hgraded ⟨result, hresult⟩)⟩
  rw [kartLevelsAfter, foldl_append]
  exact hlast

/-- In every run from an accepted file whose requests fit, the file is accepted after each request; a record that a request
changed has grade five, levels in 0..=10 and the points that they leave of 35; an upgrade keeps the levels of a kart whose points
were added to before; and a request that fails leaves the file as it was. -/
theorem kartLevels_budgeted (textLength : List LevelState → Nat) (file : Option (Sidecar LevelState)) (start : List LevelState)
    (done : List KartLevelRequest) (request : KartLevelRequest) (hfile : parseLevelStates file = .ok start)
    (hfits : FitsRun textLength file (done ++ [request])) :
    let before := kartLevelsAfter textLength file done
    let after := request.fileAfter textLength before
    ∃ states states', parseLevelStates before = .ok states ∧ parseLevelStates after = .ok states' ∧
      (∀ record written, request.perform textLength before = .ok (record, written) →
        after = some written ∧ written.records = states' ∧
        ∃ next, lookup LevelState.key request.key states' = some next ∧ next.Budgeted ∧ record = next.asException) ∧
      (∀ record written, request.operation = .upgrade → UpdatedIn textLength file done request.key →
        request.perform textLength before = .ok (record, written) →
        ∃ state, lookup LevelState.key request.key states = some state ∧
          [record.level1, record.level2, record.level3, record.level4] = state.levels) ∧
      (∀ error, request.perform textLength before = .error error → after = before) := by
  intro before after
  rw [fitsRun_append] at hfits
  obtain ⟨hdone, hrequest, -⟩ := hfits
  obtain ⟨states, hbefore, -⟩ := of_kartLevelsAfter hfile hdone
  obtain ⟨states', hafter, -, -⟩ := of_fileAfter textLength hbefore hrequest
  refine ⟨states, states', hbefore, hafter, ?_, ?_, ?_⟩
  · intro record written hperform
    have hwritten : after = some written := by
      change request.fileAfter textLength before = _
      rw [KartLevelRequest.fileAfter, hperform]
    obtain ⟨next, hkeeps, hrecord, -, hrecords, hparse⟩ := of_perform hbefore hrequest hperform
    rw [← hwritten] at hparse
    obtain rfl := ok.inj (hafter.symm.trans hparse)
    exact ⟨hwritten, hrecords, next, lookup_put_self _ hkeeps.key _, hkeeps.budgeted, hrecord⟩
  · intro record written hupgrade hupdated hperform
    obtain ⟨next, -, rfl, hmutation, -, -⟩ := of_perform hbefore hrequest hperform
    obtain ⟨graded, hgraded, state, hlookup, hgrade⟩ := graded_of_updatedIn hfile hdone hupdated
    obtain rfl := ok.inj (hbefore.symm.trans hgraded)
    rw [hupgrade, hlookup] at hmutation
    exact ⟨state, hlookup, levels_upgrade hgrade hmutation⟩
  · intro error hperform
    change request.fileAfter textLength before = before
    rw [KartLevelRequest.fileAfter, hperform]

/-- Ten points are put into one level of a new kart, which is upgraded then and keeps its levels. -/
theorem kartLevels_budgeted_one : ∃ states states' old new,
    parseLevelStates (kartLevelsAfter (fun _ => 160) none [⟨1401, 1, .updatePoints ⟨10, 0, 0, 0⟩⟩]) = .ok states ∧
      parseLevelStates (kartLevelsAfter (fun _ => 160) none [⟨1401, 1, .updatePoints ⟨10, 0, 0, 0⟩⟩, ⟨1401, 1, .upgrade⟩]) =
        .ok states' ∧
      lookup LevelState.key (1401, 1) states = some old ∧ lookup LevelState.key (1401, 1) states' = some new ∧
      new.Budgeted ∧ new.levels = old.levels := by
  have hfits : FitsRun (fun _ => 160) none [⟨1401, 1, .updatePoints ⟨10, 0, 0, 0⟩⟩, ⟨1401, 1, .upgrade⟩] := by
    refine ⟨?_, fun _ _ => trivial, trivial⟩
    intro states hstates
    obtain rfl := ok.inj hstates
    exact ⟨fun h => absurd h (by decide), fun _ => by decide⟩
  obtain ⟨states, states', hbefore, hafter, hdone, hkept, -⟩ := kartLevels_budgeted (fun _ => 160) none []
    [⟨1401, 1, .updatePoints ⟨10, 0, 0, 0⟩⟩] ⟨1401, 1, .upgrade⟩ rfl hfits
  have hupgrade : KartLevelRequest.perform (fun _ => 160) ⟨1401, 1, .upgrade⟩ (kartLevelsAfter (fun _ => 160) none
      [⟨1401, 1, .updatePoints ⟨10, 0, 0, 0⟩⟩]) =
      .ok (⟨1401, 1, 5, 25, 10, 0, 0, 0, 0⟩, ⟨160, [⟨1401, 1, 5, 25, 10, 0, 0, 0, 0⟩]⟩) := rfl
  obtain ⟨-, -, new, hnew, hbudgeted, hrecord⟩ := hdone _ _ hupgrade
  obtain ⟨old, hold, hlevels⟩ := hkept _ _ rfl ⟨[], _, [], _, _, rfl, rfl, rfl, rfl⟩ hupgrade
  rw [hrecord] at hlevels
  exact ⟨states, states', old, new, hbefore, hafter, hold, hnew, hbudgeted, hlevels⟩

/-- Ten points are put into each level of a new kart: the record has five points less than none, and the file is not accepted any
more. -/
theorem kartLevels_budgeted_false :
    ¬ ∀ (textLength : List LevelState → Nat) (file : Option (Sidecar LevelState)) (start : List LevelState)
        (request : KartLevelRequest) (record : KartLevelExcRecord) (written : Sidecar LevelState),
      parseLevelStates file = .ok start → request.perform textLength file = .ok (record, written) →
      ∃ states, parseLevelStates (some written) = .ok states := by
  intro h
  obtain ⟨states, hstates⟩ := h (fun _ => 163) none [] ⟨1401, 1, .updatePoints ⟨10, 10, 10, 10⟩⟩
    ⟨1401, 1, 5, -5, 10, 10, 10, 10, 0⟩ ⟨163, [⟨1401, 1, 5, -5, 10, 10, 10, 10, 0⟩]⟩ rfl rfl
  have herror : parseLevelStates (some ⟨163, [⟨1401, 1, 5, -5, 10, 10, 10, 10, 0⟩]⟩) =
      .error (.invalidKartLevelRemainingPoints (-5)) := rfl
  rw [herror] at hstates
  exact absurd hstates (by simp)

end P5136
