import P5136.Lib.Act
import P5136.Lib.Probing
import Mathlib.Tactic.Ring

/-!
# Block indices of a legacy archive

The writer gives every directory and every file the index of its block: a checksum of its name, moved on by a fixed step until
it is free. A partially encrypted file with a continuation takes the index behind its own as well, and the search asks for a
file that the index behind is free too.
-/

namespace P5136

/-- The limit that the indices of a legacy archive meet. -/
structure LegacyRhoLimits where
  maxBlocks : Nat

def LegacyRhoLimits.default : LegacyRhoLimits where
  maxBlocks := 65536

/-- Why a legacy archive gets no indices. -/
inductive LegacyIndexError where
  | indexSpaceExhausted
deriving DecidableEq

namespace Legacy

/-- `DIRECTORY_COLLISION_STEP`. -/
def directoryCollisionStep : UInt32 := 0x5f03e367

/-- `FILE_COLLISION_STEP`. -/
def fileCollisionStep : UInt32 := 0x4d21cb4f

/-- The test of `reserve_index` on a candidate. -/
def indexFree (requireNextFree : Bool) (used : Finset UInt32) (candidate : UInt32) : Bool :=
  candidate ∉ used ∧ (¬requireNextFree ∨ candidate + 1 ∉ used)

def reserveIndex (candidate : UInt32) (requireNextFree : Bool) (step : UInt32) : Act (Finset UInt32) LegacyIndexError UInt32 :=
  fun used => match Probing.search (· + step) (indexFree requireNextFree used) (used.card + 1) candidate with
    | some index => (.ok index, insert index used)
    | none => (.error .indexSpaceExhausted, used)

/-! ## The steps -/

/-- So many steps from a candidate. -/
theorem iterate_step (step candidate : UInt32) (k : Nat) :
    ((· + step)^[k] candidate).toNat = (candidate.toNat + k * step.toNat) % 2 ^ 32 := by
  induction k generalizing candidate with
  | zero => simp
  | succ k ih =>
    rw [Function.iterate_succ_apply, ih, UInt32.toNat_add, Nat.mod_add_mod, Nat.succ_mul, Nat.add_assoc,
      Nat.add_comm step.toNat]

/-- What a candidate that needs its successor free too looks up. -/
def lookedUp : List (UInt32 → UInt32) := [id, (· + 1)]

/-- A step whose inverse is far from zero leads in few steps to no place next to where it started. -/
theorem not_dvd_of_inverse {size reach step inverse steps offset : Int} (hinverse : size ∣ step * inverse - 1)
    (hlow : reach < inverse) (hhigh : inverse + reach < size) (hpos : 0 < steps) (hsteps : steps ≤ reach)
    (hoffset : offset = -1 ∨ offset = 0 ∨ offset = 1) : ¬size ∣ steps * step + offset := by
  intro hdvd
  have hmul : size ∣ steps + offset * inverse := by
    have hsum := Int.dvd_sub (hdvd.mul_right inverse) (hinverse.mul_left steps)
    have heq : (steps * step + offset) * inverse - steps * (step * inverse - 1) = steps + offset * inverse := by ring
    rwa [heq] at hsum
  -- In each case a number strictly between two multiples of the size is left.
  rcases hoffset with rfl | rfl | rfl
  · have hneg := Int.dvd_neg.2 hmul
    have hle := Int.le_of_dvd (by omega) hneg
    omega
  · have hle := Int.le_of_dvd (by omega) hmul
    omega
  · have hle := Int.le_of_dvd (by omega) hmul
    omega

/-- A step is far-reaching: no number of steps up to the limit of blocks leads onto a candidate, its successor or its
predecessor. -/
def FarReaching (step : UInt32) : Prop := Probing.Separated (· + step) lookedUp LegacyRhoLimits.default.maxBlocks

/-- A step whose inverse is far from zero is far-reaching. -/
theorem farReaching_of_inverse {step : UInt32} {inverse : Int} (hinverse : (2 ^ 32 : Int) ∣ step.toNat * inverse - 1)
    (hlow : 65536 < inverse) (hhigh : inverse + 65536 < 2 ^ 32) : FarReaching step := by
  intro start i j hij hj f hf g hg heq
  have hlimit : j ≤ 65536 := hj
  have hnat := congrArg UInt32.toNat heq
  obtain ⟨offset, hoffset, hdvd⟩ : ∃ offset : Int, (offset = -1 ∨ offset = 0 ∨ offset = 1) ∧
      (2 ^ 32 : Int) ∣ ((j - i : Nat) : Int) * step.toNat + offset := by
    have hsplit : j * step.toNat = i * step.toNat + (j - i) * step.toNat := by
      rw [← Nat.add_mul, Nat.add_sub_cancel' hij.le]
    simp only [lookedUp, List.mem_cons, List.not_mem_nil, or_false] at hf hg
    generalize hd : (j - i) * step.toNat = distance at hsplit
    rcases hf with rfl | rfl <;> rcases hg with rfl | rfl <;>
      simp only [id, UInt32.toNat_add, iterate_step, hsplit, UInt32.toNat_one] at hnat
    · exact ⟨0, by simp, by omega⟩
    · exact ⟨1, by simp, by omega⟩
    · exact ⟨-1, by simp, by omega⟩
    · exact ⟨0, by simp, by omega⟩
  exact not_dvd_of_inverse hinverse hlow hhigh (by omega) (by omega) hoffset hdvd

/-- Directories step far. -/
theorem farReaching_directory : FarReaching directoryCollisionStep := by
  exact @farReaching_of_inverse _ 2143914071 (by decide +kernel) (by decide) (by decide)

/-- Files step far. -/
theorem farReaching_file : FarReaching fileCollisionStep := by
  exact @farReaching_of_inverse _ 2421451695 (by decide +kernel) (by decide) (by decide)

/-! ## The search -/

/-- A candidate is free when nothing that is looked up for it is used. -/
theorem indexFree_iff (requireNextFree : Bool) (used : Finset UInt32) (candidate : UInt32) :
    indexFree requireNextFree used candidate = true ↔
      ∀ f ∈ (if requireNextFree then lookedUp else [id]), f candidate ∉ used := by
  cases requireNextFree <;> simp [indexFree, lookedUp]

/-- With a far-reaching step and no more used indices than an archive may have blocks, a free index is found. -/
theorem reserveIndex_of_farReaching {step : UInt32} (hstep : FarReaching step) (candidate : UInt32) (requireNextFree : Bool)
    {used : Finset UInt32} (hused : used.card ≤ LegacyRhoLimits.default.maxBlocks) :
    ∃ index, reserveIndex candidate requireNextFree step used = (.ok index, insert index used) ∧ index ∉ used ∧
      (requireNextFree = true → index + 1 ∉ used) ∧ ∃ probes ≤ used.card, (· + step)^[probes] candidate = index := by
  have hseparated : Probing.Separated (· + step) (if requireNextFree then lookedUp else [id]) used.card := by
    refine (Probing.Separated.subset hstep ?_).mono hused
    cases requireNextFree <;> simp [lookedUp]
  obtain ⟨index, hfound, hcells, hprobe⟩ :=
    Probing.search_finds (indexFree_iff requireNextFree used) hseparated candidate
  refine ⟨index, by simp only [reserveIndex, hfound], ?_, ?_, hprobe⟩
  · exact hcells id (by cases requireNextFree <;> simp [lookedUp])
  · rintro rfl
    exact hcells (· + 1) (by simp [lookedUp])

/-- Among at most as many used indices as an archive may have blocks by default, `reserve_index` finds a free one within its
probes, whatever the candidate: one that was not used, nor the one behind it where that is asked for. -/
theorem reserveIndex_finds (candidate : UInt32) (requireNextFree : Bool) {step : UInt32} {used : Finset UInt32}
    (hstep : step = directoryCollisionStep ∨ step = fileCollisionStep)
    (hused : used.card ≤ LegacyRhoLimits.default.maxBlocks) :
    ∃ index, reserveIndex candidate requireNextFree step used = (.ok index, insert index used) ∧ index ∉ used ∧
      (requireNextFree = true → index + 1 ∉ used) ∧ ∃ probes ≤ used.card, (· + step)^[probes] candidate = index := by
  rcases hstep with rfl | rfl
  · exact reserveIndex_of_farReaching farReaching_directory candidate requireNextFree hused
  · exact reserveIndex_of_farReaching farReaching_file candidate requireNextFree hused

/-- A file behind another one whose index and successor are both used. -/
theorem reserveIndex_finds_sample :
    ∃ index, reserveIndex 7 true fileCollisionStep {7, 8} = (.ok index, insert index {7, 8}) ∧
      index ∉ ({7, 8} : Finset UInt32) ∧ (true = true → index + 1 ∉ ({7, 8} : Finset UInt32)) ∧
      ∃ probes ≤ ({7, 8} : Finset UInt32).card, (· + fileCollisionStep)^[probes] 7 = index :=
  reserveIndex_finds 7 true (Or.inr rfl) (by decide)

end Legacy

end P5136
