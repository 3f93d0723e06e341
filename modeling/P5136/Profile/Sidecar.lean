import P5136.Lib.Checked
import P5136.Lib.Checks
import P5136.Lib.Keyed

/-!
# Equipment sidecars

The files of records beside a rider's profile (`equipment.rs`): reading a bounded file, the serial that an unnumbered kart goes
by, the last record of a key that is kept when a file repeats one, and writing the records back. The text of a file is JSON: a
file is the records it spells and the length of its text.
-/

namespace P5136

open Keyed

/-- `MAX_EQUIPMENT_STATE_BYTES`. -/
def maxEquipmentStateBytes : Nat := 16 * 1024 * 1024

/-- `MAX_EQUIPMENT_RECORDS`. -/
def maxEquipmentRecords : Nat := 65535

inductive EquipmentStateError where
  | tooLarge (actual maximum : Nat)
  | tooManyRecords (kind : String) (maximum : Nat)
  | invalidPlantPartCategory (category : Int16)
  | invalidPlantPartItem (item : Int16)
  | invalidPlantKart (kart : Int16)
  | invalidXPartCategory (category : Int16)
  | invalidXPartItem (item : Int16)
  | invalidXPartKart (kart : Int16)
  | invalidKartLevelKart (kart : Int16)
  | invalidKartLevelPoint (slot : Nat) (value : Int16)
  | kartLevelPointBudgetExceeded (allocated : Int16)
  | invalidKartLevelRemainingPoints (points : Int16)
  | kartLevelPointOverflow
  | invalidFloaterKart (kart : Int16)
  | invalidFloaterSelector (selector : Int16)
  | invalidFloaterCode (code : Int16)
  | duplicateFloaterCode (code : Int16)
  | invalidFloaterProtectionKind (kind : Int16)
  | invalidFloaterProtectionSlot (slot : Int16)
  | invalidFloaterProtectionCount (count : Int16)
  | missingFloaterState (kartId kartSerial : Int16)
  | floaterCodePoolExhausted (selector : Int16)
  | floaterSlotsFull
  | emptyFloaterProtectionSlot (slot : Int16)
  | duplicateFloaterProtectionSlot (slot : Int16)
deriving DecidableEq

/-- A sidecar file: its records, and the length of its text. -/
structure Sidecar (σ : Type) where
  length : Nat
  records : List σ
deriving DecidableEq

namespace Sidecar

variable {σ : Type}

/-- `read_optional_bounded_capability` and the bounded list of records in its text; a missing file has none. -/
def read (kind : String) : Option (Sidecar σ) → Except EquipmentStateError (List σ)
  | none => .ok []
  | some file =>
    if maxEquipmentStateBytes < file.length then .error (.tooLarge file.length maxEquipmentStateBytes)
    else if maxEquipmentRecords < file.records.length then .error (.tooManyRecords kind maxEquipmentRecords)
    else .ok file.records

/-- `write_equipment_states_capability`, given the length of the text of the records. -/
def write (textLength : List σ → Nat) (states : List σ) : Except EquipmentStateError (Sidecar σ) :=
  if maxEquipmentStateBytes < textLength states then .error (.tooLarge (textLength states) maxEquipmentStateBytes)
  else .ok ⟨textLength states, states⟩

/-- What is read is bounded. -/
theorem length_of_read {kind : String} {file : Option (Sidecar σ)} {states : List σ} (h : read kind file = .ok states) :
    states.length ≤ maxEquipmentRecords := by
  unfold read at h
  rcases file with _ | file
  · obtain rfl := Except.ok.inj h
    exact Nat.zero_le _
  · simp only [] at h
    by_cases hbytes : maxEquipmentStateBytes < file.length
    · rw [if_pos hbytes] at h
      exact absurd h (by simp)
    · rw [if_neg hbytes] at h
      by_cases hrecords : maxEquipmentRecords < file.records.length
      · rw [if_pos hrecords] at h
        exact absurd h (by simp)
      · rw [if_neg hrecords] at h
        obtain rfl := Except.ok.inj h
        exact Nat.le_of_not_lt hrecords

/-- What is written has the records, and is read back. -/
theorem of_write {textLength : List σ → Nat} {states : List σ} {file : Sidecar σ} (kind : String)
    (h : write textLength states = .ok file) (hlength : states.length ≤ maxEquipmentRecords) :
    file.records = states ∧ read kind (some file) = .ok states := by
  unfold write at h
  by_cases hbytes : maxEquipmentStateBytes < textLength states
  · rw [if_pos hbytes] at h
    exact absurd h (by simp)
  · rw [if_neg hbytes] at h
    obtain rfl := Except.ok.inj h
    refine ⟨rfl, ?_⟩
    simp only [read]
    rw [if_neg hbytes, if_neg (by omega)]

end Sidecar

def normalizeKartSerial (id serial : Int16) : Int16 := if id ≠ 0 ∧ serial = 0 then 1 else serial

/-- Normalizing a serial twice changes nothing more. -/
@[simp] theorem normalizeKartSerial_idem (id serial : Int16) :
    normalizeKartSerial id (normalizeKartSerial id serial) = normalizeKartSerial id serial := by
  unfold normalizeKartSerial
  by_cases h : id ≠ 0 ∧ serial = 0
  · rw [if_pos h, if_neg (fun hone => absurd hone.2 (by decide))]
  · rw [if_neg h, if_neg h]

def deduplicateLastByKey {σ κ : Type} [DecidableEq κ] (states : List σ) (key : σ → κ) : List σ := collect key [] states

/-- The records of a file that is kept in order: their serials are normalized and each key stands once. -/
structure Canonical {σ κ : Type} (normalize : σ → σ) (key : σ → κ) (states : List σ) : Prop where
  normalized : ∀ state ∈ states, normalize state = state
  nodup : (states.map key).Nodup

namespace Canonical

variable {σ κ : Type} [DecidableEq κ] {normalize : σ → σ} {key : σ → κ} {states : List σ}

/-- Normalizing the records and keeping the last of each key puts a file in order. -/
theorem of_deduplicate (hidem : ∀ state, normalize (normalize state) = normalize state) (states : List σ) :
    Canonical normalize key (deduplicateLastByKey (states.map normalize) key) := by
  refine ⟨?_, nodup_collect key (by simp) _⟩
  intro state hstate
  rcases mem_collect key hstate with hmem | hmem
  · exact absurd hmem (by simp)
  · obtain ⟨original, -, rfl⟩ := List.mem_map.1 hmem
    exact hidem original

/-- Doing so again changes nothing more. -/
theorem deduplicate_eq (h : Canonical normalize key states) : deduplicateLastByKey (states.map normalize) key = states := by
  have hmap : states.map normalize = states := (List.map_congr_left h.normalized).trans (List.map_id _)
  rw [hmap, deduplicateLastByKey, collect_of_nodup key (by simpa using h.nodup), List.nil_append]

/-- A normalized record is put in order. -/
theorem put (h : Canonical normalize key states) {k : κ} {next : σ} (hkey : key next = k) (hnext : normalize next = next) :
    Canonical normalize key (put key k next states) := by
  refine ⟨?_, nodup_put key hkey h.nodup⟩
  intro state hstate
  rcases mem_put key hstate with rfl | hstate
  · exact hnext
  · exact h.normalized state hstate

end Canonical

/-- The record of a key, or a fresh one when there is none and the list has room for it. -/
def findOrInsert {σ κ : Type} [DecidableEq κ] (kind : String) (key : σ → κ) (k : κ) (fresh : σ) (states : List σ) :
    Except EquipmentStateError σ :=
  match lookup key k states with
  | some state => .ok state
  | none => if maxEquipmentRecords ≤ states.length then .error (.tooManyRecords kind maxEquipmentRecords) else .ok fresh

section FindOrInsert

variable {σ κ : Type} [DecidableEq κ] {kind : String} {key : σ → κ} {k : κ} {fresh state : σ} {states : List σ}

/-- The record is the one found or the fresh one. -/
theorem eq_of_findOrInsert (h : findOrInsert kind key k fresh states = .ok state) :
    state = (lookup key k states).getD fresh := by
  unfold findOrInsert at h
  rcases hfind : lookup key k states with _ | found
  · rw [hfind] at h
    simp only [] at h
    by_cases hfull : maxEquipmentRecords ≤ states.length
    · rw [if_pos hfull] at h
      exact absurd h (by simp)
    · rw [if_neg hfull] at h
      exact (Except.ok.inj h).symm
  · rw [hfind] at h
    exact (Except.ok.inj h).symm

/-- The record has the key. -/
theorem key_of_findOrInsert (h : findOrInsert kind key k fresh states = .ok state) (hfresh : key fresh = k) :
    key state = k := by
  rw [eq_of_findOrInsert h]
  rcases hfind : lookup key k states with _ | found
  · exact hfresh
  · exact key_of_lookup key hfind

/-- The list has room for the record. -/
theorem length_put_of_findOrInsert (h : findOrInsert kind key k fresh states = .ok state)
    (hlength : states.length ≤ maxEquipmentRecords) {next : σ} (hnext : key next = k) :
    (put key k next states).length ≤ maxEquipmentRecords := by
  have hput := length_put key hnext states
  unfold findOrInsert at h
  rcases hfind : lookup key k states with _ | found
  · rw [hfind] at h
    simp only [] at h
    by_cases hfull : maxEquipmentRecords ≤ states.length
    · rw [if_pos hfull] at h
      exact absurd h (by simp)
    · split at hput <;> omega
  · have hmem : k ∈ states.map key :=
      List.mem_map.2 ⟨found, mem_of_lookup key hfind, key_of_lookup key hfind⟩
    rw [if_pos hmem] at hput
    omega

end FindOrInsert

end P5136
