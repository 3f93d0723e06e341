import P5136.Lib.Checked
import P5136.Lib.Checks
import P5136.Lib.WeightedChoice
import P5136.Nickname

/-!
# Item probabilities

The tables of item weights (`item_probability.rs`): their validation, the band of weights that a rank resolves to, and the item
that a roll selects. In a table that was validated every item is selected by exactly as many rolls as it weighs in the band.
-/

namespace P5136

open Checks List WeightedChoice

inductive ItemProbabilityRankBand where
  | live
  | top
  | high
  | middle
  | low
  | combined
deriving DecidableEq

inductive ItemProbabilityRankPolicy where
  | trustClientReported
  | combinedFallback
deriving DecidableEq

structure ItemProbabilityEntry where
  itemId : Int16
  name : String
  topWeight : UInt32
  highWeight : UInt32
  middleWeight : UInt32
  lowWeight : UInt32
deriving DecidableEq

structure ItemProbabilityConfiguration where
  rankBand : ItemProbabilityRankBand
  individual : List ItemProbabilityEntry
  team : List ItemProbabilityEntry
deriving DecidableEq

/-- `ItemProbabilityError`, of a table and a roll. -/
inductive ItemProbabilityError where
  | emptyTable (table : String)
  | tooManyEntries (table : String) (actual maximum : Nat)
  | invalidItemId (table : String) (index : Nat) (itemId : Int16)
  | duplicateItemId (table : String) (itemId : Int16)
  | invalidName (table : String) (index : Nat)
  | weightTooLarge (table : String) (index : Nat) (field : String) (actual maximum : UInt32)
  | zeroActiveWeight (table : String) (rankBand : ItemProbabilityRankBand)
  | weightTotalOverflow
  | rollOutOfRange (roll total : Nat)
  | selectionInvariant
deriving DecidableEq

/-- `MAX_ENTRIES_PER_TABLE`. -/
def maxEntriesPerTable : Nat := 512

/-- `MAX_ITEM_NAME_BYTES`. -/
def maxItemNameBytes : Nat := 256

/-- `MAX_WEIGHT`. -/
def maxWeight : UInt32 := 1000000

/-- `LIVE_RANK_BANDS`: a row for each count of racers, indexed by the reported rank. -/
def liveRankBands : List (List ItemProbabilityRankBand) := [
  [.top],
  [.top, .middle],
  [.top, .middle, .low],
  [.top, .middle, .middle, .low],
  [.top, .high, .middle, .middle, .low],
  [.top, .high, .middle, .middle, .low, .low],
  [.top, .high, .high, .middle, .middle, .low, .low],
  [.top, .high, .high, .middle, .middle, .middle, .low, .low]]

/-- `weight`: sums of four 32-bit numbers fit 64 bits. -/
def ItemProbabilityEntry.weight (self : ItemProbabilityEntry) : ItemProbabilityRankBand → Nat
  | .top => self.topWeight.toNat
  | .high => self.highWeight.toNat
  | .middle => self.middleWeight.toNat
  | .low => self.lowWeight.toNat
  | .combined | .live => self.topWeight.toNat + self.highWeight.toNat + self.middleWeight.toNat + self.lowWeight.toNat

namespace ItemProbability

/-- The names that a table rejects. -/
def invalidName (name : String) : Bool :=
  name.isEmpty || decide (name.length > 64) || decide (name.utf8ByteSize > maxItemNameBytes) || name.toList.any isControl

/-- The loop of `validate_table` over the entries, with the ids seen before. -/
def validateEntries (table : String) : Nat → List Int16 → List ItemProbabilityEntry → Except ItemProbabilityError Unit
  | _, _, [] => .ok ()
  | index, ids, entry :: entries => do
    ensure (¬entry.itemId ≤ 0) (.invalidItemId table index entry.itemId)
    ensure (entry.itemId ∉ ids) (.duplicateItemId table entry.itemId)
    ensure (invalidName entry.name = false) (.invalidName table index)
    all (fun (field, weight) => ensure (¬weight > maxWeight) (.weightTooLarge table index field weight maxWeight))
      [("top", entry.topWeight), ("high", entry.highWeight), ("middle", entry.middleWeight), ("low", entry.lowWeight)]
    validateEntries table (index + 1) (entry.itemId :: ids) entries

/-- The bands that a table must have a weight in. -/
def activeBands (configuredBand : ItemProbabilityRankBand) : List ItemProbabilityRankBand :=
  if configuredBand = .live then [.top, .high, .middle, .low] else [configuredBand]

def validateTable (table : String) (entries : List ItemProbabilityEntry) (configuredBand : ItemProbabilityRankBand) :
    Except ItemProbabilityError Unit := do
  ensure (¬entries.isEmpty) (.emptyTable table)
  ensure (¬entries.length > maxEntriesPerTable) (.tooManyEntries table entries.length maxEntriesPerTable)
  validateEntries table 0 [] entries
  all (fun rankBand => ensure (¬entries.all (fun entry => entry.weight rankBand = 0))
    (.zeroActiveWeight table rankBand)) (activeBands configuredBand)

def equalEntry (itemId : Int16) (name : String) : ItemProbabilityEntry := ⟨itemId, name, 1, 1, 1, 1⟩

end ItemProbability

namespace ItemProbabilityConfiguration

open ItemProbability

/-- `safe_fallback`, the default. -/
def safeFallback : ItemProbabilityConfiguration :=
  let common : List (Int16 × String) := [(2, "devil"), (3, "ufo"), (4, "waterFly"), (5, "magnet"), (6, "booster"),
    (7, "rocket"), (8, "banana"), (9, "waterBomb"), (10, "shield"), (11, "angel"), (12, "emp"), (13, "timeBomb"),
    (33, "guideRocket"), (111, "thunderbolt")]
  let individual := common.map fun (itemId, name) => equalEntry itemId name
  let team := individual ++ [equalEntry 109 "scanning", equalEntry 110 "slotLock", equalEntry 113 "barricade",
    equalEntry 114 "cloud2"]
  ⟨.live, individual, team⟩

def validate (self : ItemProbabilityConfiguration) : Except ItemProbabilityError Unit := do
  validateTable "individual" self.individual self.rankBand
  validateTable "team" self.team self.rankBand

def resolveRankBand (configured : ItemProbabilityRankBand) (clientReportedRank : Int16) (racerCount : Nat)
    (policy : ItemProbabilityRankPolicy) : ItemProbabilityRankBand :=
  if configured ≠ .live then configured
  else if policy = .combinedFallback then .combined
  else
    match Checked.toSize clientReportedRank.toInt with
    | none => .combined
    | some liveRank =>
      (((Checked.sub racerCount 1).bind fun row => liveRankBands[row]?).bind fun bands => bands[liveRank]?).getD .combined

def table (self : ItemProbabilityConfiguration) (teamMode : Bool) : List ItemProbabilityEntry :=
  if teamMode then self.team else self.individual

/-- The name of a table in the errors. -/
def tableName (teamMode : Bool) : String := if teamMode then "team" else "individual"

def rollTotal (self : ItemProbabilityConfiguration) (teamMode : Bool) (liveRank : Int16) (racerCount : Nat)
    (rankPolicy : ItemProbabilityRankPolicy) : Except ItemProbabilityError (ItemProbabilityRankBand × Nat) := do
  let band := resolveRankBand self.rankBand liveRank racerCount rankPolicy
  let total ← (self.table teamMode).foldlM
    (fun total entry => orElse (Checked.add total (entry.weight band)) .weightTotalOverflow) 0
  ensure (total ≠ 0) (.zeroActiveWeight (tableName teamMode) band)
  pure (band, total)

/-- `select_with_roll`; the loop over the table is the choice by weight. -/
def selectWithRoll (self : ItemProbabilityConfiguration) (teamMode : Bool) (liveRank : Int16) (racerCount roll : Nat)
    (rankPolicy : ItemProbabilityRankPolicy) : Except ItemProbabilityError (Int16 × ItemProbabilityRankBand) := do
  let (band, total) ← self.rollTotal teamMode liveRank racerCount rankPolicy
  ensure (¬roll ≥ total) (.rollOutOfRange roll total)
  match pick (fun entry => entry.weight band) (self.table teamMode) roll with
  | some entry => pure (entry.itemId, band)
  | none => .error .selectionInvariant

end ItemProbabilityConfiguration

/-! ## What a validated table is -/

namespace ItemProbability

/-- A table that was validated for a configured band. -/
structure Sound (entries : List ItemProbabilityEntry) (configuredBand : ItemProbabilityRankBand) : Prop where
  length_le : entries.length ≤ maxEntriesPerTable
  ids : (entries.map ItemProbabilityEntry.itemId).Nodup
  weights : ∀ entry ∈ entries, entry.topWeight ≤ maxWeight ∧ entry.highWeight ≤ maxWeight ∧ entry.middleWeight ≤ maxWeight ∧
    entry.lowWeight ≤ maxWeight
  active : ∀ band ∈ activeBands configuredBand, ∃ entry ∈ entries, entry.weight band ≠ 0

/-- The loop over the entries accepts ids that are new and weights within the bound. -/
theorem validateEntries_ok {table : String} {index : Nat} {ids : List Int16} {entries : List ItemProbabilityEntry}
    (h : validateEntries table index ids entries = .ok ()) :
    (entries.map ItemProbabilityEntry.itemId).Nodup ∧ (∀ entry ∈ entries, entry.itemId ∉ ids) ∧
      ∀ entry ∈ entries, entry.topWeight ≤ maxWeight ∧ entry.highWeight ≤ maxWeight ∧ entry.middleWeight ≤ maxWeight ∧
        entry.lowWeight ≤ maxWeight := by
  induction entries generalizing index ids with
  | nil => exact ⟨nodup_nil, by simp, by simp⟩
  | cons entry entries ih =>
    rw [validateEntries] at h
    obtain ⟨_, -, h⟩ := bind_eq_ok.1 h
    obtain ⟨_, hnew, h⟩ := bind_eq_ok.1 h
    obtain ⟨_, -, h⟩ := bind_eq_ok.1 h
    obtain ⟨_, hweights, h⟩ := bind_eq_ok.1 h
    rw [ensure_eq_ok] at hnew
    rw [all_eq_ok] at hweights
    obtain ⟨hnodup, hids, hbounds⟩ := ih h
    have hbound : ∀ field weight, (field, weight) ∈ [("top", entry.topWeight), ("high", entry.highWeight),
        ("middle", entry.middleWeight), ("low", entry.lowWeight)] → weight ≤ maxWeight := by
      intro field weight hmem
      exact UInt32.not_lt.1 (ensure_eq_ok.1 (hweights (field, weight) hmem))
    refine ⟨?_, ?_, ?_⟩
    · rw [map_cons, nodup_cons]
      refine ⟨fun hmem => ?_, hnodup⟩
      obtain ⟨later, hlater, heq⟩ := mem_map.1 hmem
      exact hids later hlater (heq ▸ mem_cons_self ..)
    · intro other hother
      rcases mem_cons.1 hother with rfl | hlater
      · exact hnew
      · exact fun hmem => hids other hlater (mem_cons_of_mem _ hmem)
    · intro other hother
      rcases mem_cons.1 hother with rfl | hlater
      · exact ⟨hbound "top" _ (by simp), hbound "high" _ (by simp), hbound "middle" _ (by simp), hbound "low" _ (by simp)⟩
      · exact hbounds other hlater

/-- A table that `validate_table` accepts is sound. -/
theorem sound_of_validateTable {table : String} {entries : List ItemProbabilityEntry}
    {configuredBand : ItemProbabilityRankBand} (h : validateTable table entries configuredBand = .ok ()) :
    Sound entries configuredBand := by
  rw [validateTable] at h
  obtain ⟨_, -, h⟩ := bind_eq_ok.1 h
  obtain ⟨_, hlength, h⟩ := bind_eq_ok.1 h
  obtain ⟨⟨⟩, hentries, hactive⟩ := bind_eq_ok.1 h
  rw [ensure_eq_ok] at hlength
  rw [all_eq_ok] at hactive
  obtain ⟨hids, -, hweights⟩ := validateEntries_ok hentries
  refine ⟨by omega, hids, hweights, fun band hband => ?_⟩
  have hsome := ensure_eq_ok.1 (hactive band hband)
  simpa using hsome

/-- Some entry weighs something in the band that a rank resolves to, also where that is the combined band of a live table. -/
theorem Sound.resolved {entries : List ItemProbabilityEntry} {configured : ItemProbabilityRankBand}
    (h : Sound entries configured) (liveRank : Int16) (racerCount : Nat) (policy : ItemProbabilityRankPolicy) :
    ∃ entry ∈ entries,
      entry.weight (ItemProbabilityConfiguration.resolveRankBand configured liveRank racerCount policy) ≠ 0 := by
  have hactive := h.active
  by_cases hlive : configured = .live
  · rw [activeBands, if_pos hlive] at hactive
    obtain ⟨top, htop, hweight⟩ := hactive .top (by simp)
    generalize ItemProbabilityConfiguration.resolveRankBand configured liveRank racerCount policy = band
    have hcombined : top.topWeight.toNat + top.highWeight.toNat + top.middleWeight.toNat + top.lowWeight.toNat ≠ 0 := by
      change top.topWeight.toNat ≠ 0 at hweight
      omega
    cases band with
    | live => exact ⟨top, htop, hcombined⟩
    | combined => exact ⟨top, htop, hcombined⟩
    | top => exact hactive .top (by simp)
    | high => exact hactive .high (by simp)
    | middle => exact hactive .middle (by simp)
    | low => exact hactive .low (by simp)
  · rw [activeBands, if_neg hlive] at hactive
    rw [ItemProbabilityConfiguration.resolveRankBand, if_pos hlive]
    exact hactive configured (by simp)

/-- The total of a sound table is far from an overflow. -/
theorem Sound.total_lt {entries : List ItemProbabilityEntry} {configured : ItemProbabilityRankBand}
    (h : Sound entries configured) (band : ItemProbabilityRankBand) :
    total (fun entry : ItemProbabilityEntry => entry.weight band) entries < 2 ^ 64 := by
  have hbound : ∀ entry ∈ entries, entry.weight band ≤ 4000000 := by
    intro entry hentry
    obtain ⟨htop, hhigh, hmiddle, hlow⟩ := h.weights entry hentry
    rw [UInt32.le_iff_toNat_le] at htop hhigh hmiddle hlow
    change _ ≤ 1000000 at htop hhigh hmiddle hlow
    cases band <;> simp only [ItemProbabilityEntry.weight] <;> omega
  have htotal := total_le hbound
  have hlength := h.length_le
  unfold maxEntriesPerTable at hlength
  omega

/-- The checked sum of the weights is their total, when that does not overflow. -/
theorem foldlM_weights {band : ItemProbabilityRankBand} {entries : List ItemProbabilityEntry} {start : Nat}
    (h : start + total (fun entry : ItemProbabilityEntry => entry.weight band) entries < 2 ^ 64) :
    entries.foldlM (fun total entry => orElse (Checked.add total (entry.weight band))
      ItemProbabilityError.weightTotalOverflow) start =
        .ok (start + total (fun entry : ItemProbabilityEntry => entry.weight band) entries) := by
  induction entries generalizing start with
  | nil => rfl
  | cons entry entries ih =>
    rw [total_cons] at h
    have hadd : Checked.add start (entry.weight band) = some (start + entry.weight band) :=
      Checked.add_eq_some.2 ⟨rfl, by omega⟩
    rw [foldlM_cons, hadd, total_cons, ← Nat.add_assoc]
    exact ih (by omega)

end ItemProbability

/-! ## The roll -/

namespace ItemProbabilityConfiguration

open ItemProbability

/-- Both tables of a validated configuration are sound. -/
theorem sound_table {configuration : ItemProbabilityConfiguration} (h : configuration.validate = .ok ()) (teamMode : Bool) :
    ItemProbability.Sound (configuration.table teamMode) configuration.rankBand := by
  obtain ⟨_, hindividual, hteam⟩ := bind_eq_ok.1 h
  cases teamMode
  · exact sound_of_validateTable hindividual
  · exact sound_of_validateTable hteam

/-- The total that is rolled is the sum of the weights in the band. -/
theorem rollTotal_eq {configuration : ItemProbabilityConfiguration} {teamMode : Bool} {liveRank : Int16} {racerCount : Nat}
    {policy : ItemProbabilityRankPolicy} {band : ItemProbabilityRankBand}
    (h : ItemProbability.Sound (configuration.table teamMode) configuration.rankBand)
    (hband : resolveRankBand configuration.rankBand liveRank racerCount policy = band) :
    0 < total (fun entry => entry.weight band) (configuration.table teamMode) ∧
      configuration.rollTotal teamMode liveRank racerCount policy =
        .ok (band, total (fun entry => entry.weight band) (configuration.table teamMode)) := by
  subst hband
  have hpos := total_pos.2 (h.resolved liveRank racerCount policy)
  have hlt := h.total_lt (resolveRankBand configuration.rankBand liveRank racerCount policy)
  rw [← Nat.zero_add (total _ _)] at hlt
  have hfold := foldlM_weights hlt
  rw [Nat.zero_add] at hfold
  refine ⟨hpos, ?_⟩
  rw [rollTotal, hfold]
  refine bind_eq_ok.2 ⟨_, rfl, bind_eq_ok.2 ⟨(), ?_, rfl⟩⟩
  exact ensure_eq_ok.2 (by omega)

/-- Below the total the roll selects the entry it falls on. -/
theorem selectWithRoll_eq {configuration : ItemProbabilityConfiguration} {teamMode : Bool} {liveRank : Int16}
    {racerCount roll total : Nat} {policy : ItemProbabilityRankPolicy} {band : ItemProbabilityRankBand}
    {entry : ItemProbabilityEntry}
    (htotal : configuration.rollTotal teamMode liveRank racerCount policy = .ok (band, total)) (hroll : roll < total)
    (hpick : pick (fun entry => entry.weight band) (configuration.table teamMode) roll = some entry) :
    configuration.selectWithRoll teamMode liveRank racerCount roll policy = .ok (entry.itemId, band) := by
  rw [selectWithRoll, htotal]
  refine bind_eq_ok.2 ⟨_, rfl, bind_eq_ok.2 ⟨(), ensure_eq_ok.2 (by omega), ?_⟩⟩
  simp only [hpick]
  rfl

/-- From the total on the roll is out of range. -/
theorem selectWithRoll_outOfRange {configuration : ItemProbabilityConfiguration} {teamMode : Bool} {liveRank : Int16}
    {racerCount roll total : Nat} {policy : ItemProbabilityRankPolicy} {band : ItemProbabilityRankBand}
    (htotal : configuration.rollTotal teamMode liveRank racerCount policy = .ok (band, total)) (hroll : total ≤ roll) :
    configuration.selectWithRoll teamMode liveRank racerCount roll policy = .error (.rollOutOfRange roll total) := by
  rw [selectWithRoll, htotal]
  refine bind_eq_error.2 (.inr ⟨_, rfl, bind_eq_error.2 (.inl ?_)⟩)
  exact ensure_eq_error.2 ⟨fun hlt => hlt hroll, rfl⟩

/-- The entries of a sound table with the id of one of them are that one. -/
theorem filter_itemId {entries : List ItemProbabilityEntry} (h : (entries.map ItemProbabilityEntry.itemId).Nodup)
    {entry : ItemProbabilityEntry} (hentry : entry ∈ entries) :
    entries.filter (fun other => other.itemId == entry.itemId) = [entry] := by
  induction entries with
  | nil => cases hentry
  | cons first entries ih =>
    rw [map_cons, nodup_cons] at h
    obtain ⟨hnew, hrest⟩ := h
    rcases mem_cons.1 hentry with rfl | hlater
    · have hnone : entries.filter (fun other => other.itemId == entry.itemId) = [] := by
        refine filter_eq_nil_iff.2 fun other hother heq => hnew ?_
        exact mem_map.2 ⟨other, hother, by simpa using heq⟩
      rw [filter_cons_of_pos (by simp), hnone]
    · have hne : first.itemId ≠ entry.itemId := fun heq => hnew (mem_map.2 ⟨entry, hlater, heq.symm⟩)
      rw [filter_cons_of_neg (by simpa using hne), ih hrest hlater]

/-- In a configuration that was validated, the total of the band that any rank resolves to is positive; a roll selects an item
exactly when it is below the total, and is out of range else; and every entry is selected by exactly as many of the rolls below
the total as it weighs in the band. -/
theorem selectWithRoll_exact {configuration : ItemProbabilityConfiguration} (h : configuration.validate = .ok ())
    (teamMode : Bool) (liveRank : Int16) (racerCount : Nat) (policy : ItemProbabilityRankPolicy) :
    ∃ band total, 0 < total ∧ band = resolveRankBand configuration.rankBand liveRank racerCount policy ∧
      configuration.rollTotal teamMode liveRank racerCount policy = .ok (band, total) ∧
      (∀ roll < total, ∃ entry ∈ configuration.table teamMode,
        configuration.selectWithRoll teamMode liveRank racerCount roll policy = .ok (entry.itemId, band)) ∧
      (∀ roll, total ≤ roll →
        configuration.selectWithRoll teamMode liveRank racerCount roll policy = .error (.rollOutOfRange roll total)) ∧
      ∀ entry ∈ configuration.table teamMode,
        (range total).countP (fun roll =>
          decide (configuration.selectWithRoll teamMode liveRank racerCount roll policy = .ok (entry.itemId, band))) =
            entry.weight band := by
  have hsound := sound_table h teamMode
  generalize hband : resolveRankBand configuration.rankBand liveRank racerCount policy = band
  obtain ⟨hpos, htotal⟩ := rollTotal_eq hsound hband
  refine ⟨band, _, hpos, rfl, htotal, ?_, fun roll hroll => selectWithRoll_outOfRange htotal hroll, ?_⟩
  · intro roll hroll
    obtain ⟨entry, hentry, hpick⟩ := exists_pick hroll
    exact ⟨entry, hentry, selectWithRoll_eq htotal hroll hpick⟩
  · intro entry hentry
    have hcount : (range (total (fun entry => entry.weight band) (configuration.table teamMode))).countP
        (fun roll => (pick (fun entry => entry.weight band) (configuration.table teamMode) roll).any
          fun other => other.itemId == entry.itemId) = _ := countP_pick _ _
    rw [filter_itemId hsound.ids hentry, total_cons, total_nil, Nat.add_zero] at hcount
    rw [← hcount]
    refine countP_congr fun roll hroll => ?_
    obtain ⟨picked, -, hpick⟩ := exists_pick (mem_range.1 hroll)
    rw [selectWithRoll_eq htotal (mem_range.1 hroll) hpick, hpick]
    simp

/-- In the default each of the entries of the team table is selected by one roll of the first place. -/
theorem selectWithRoll_exact_fallback : ∃ total, 0 < total ∧
    safeFallback.rollTotal true 0 8 .trustClientReported = .ok (.top, total) ∧
    ∀ entry ∈ safeFallback.team, (range total).countP (fun roll =>
      decide (safeFallback.selectWithRoll true 0 8 roll .trustClientReported = .ok (entry.itemId, .top))) =
        entry.weight .top := by
  obtain ⟨band, total, hpos, rfl, htotal, -, -, hcount⟩ :=
    selectWithRoll_exact (show safeFallback.validate = .ok () by decide +kernel) true 0 8 .trustClientReported
  exact ⟨total, hpos, htotal, hcount⟩

end ItemProbabilityConfiguration
end P5136
