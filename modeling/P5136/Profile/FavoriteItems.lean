import Mathlib.Data.Finset.Basic
import P5136.Lib.Checks
import P5136.Lib.FiniteMap

/-!
# Favorite items

A profile keeps favorite items in the order in which they were added, each once. A batch of changes is evaluated at once: over the
sets of the items that are present and of the original items that were removed, and with the index of the latest addition of each
item. The result is that of making the changes one by one.
-/

namespace P5136

open FiniteMap

structure FavoriteItemKey where
  category : UInt16
  itemId : UInt16
  serial : UInt16
deriving DecidableEq

inductive FavoriteItemOperation where
  | add
  | remove
deriving DecidableEq

structure FavoriteItemChange where
  item : FavoriteItemKey
  operation : FavoriteItemOperation
deriving DecidableEq

/-- `MAX_FAVORITE_ITEM_UPDATE_RECORDS`. -/
def maxFavoriteItemUpdateRecords : Nat := 200

/-- `DEFAULT_MAX_FAVORITE_ITEM_LIST_RECORDS`. -/
def defaultMaxFavoriteItemListRecords : Nat := (1048576 - 8) / 7

inductive FavoriteItemStateError where
  | duplicateItem (firstIndex duplicateIndex : Nat) (item : FavoriteItemKey)
  | tooManyItems (count maximum : Nat)
  | tooManyChanges (count maximum : Nat)
deriving DecidableEq

/-- `FavoriteItems`: a list of items, each once. -/
structure FavoriteItems where
  items : List FavoriteItemKey
  nodup : items.Nodup
deriving DecidableEq

namespace FavoriteItems

/-! ## Changes one by one -/

/-- One change: an item is added at the end unless it is there, or removed. -/
def applyChange (items : List FavoriteItemKey) (change : FavoriteItemChange) : List FavoriteItemKey :=
  match change.operation with
  | .add => if change.item ∈ items then items else items ++ [change.item]
  | .remove => items.erase change.item

/-- Some changes, in order. -/
def applyChanges (items : List FavoriteItemKey) (changes : List FavoriteItemChange) : List FavoriteItemKey :=
  changes.foldl applyChange items

/-- A change keeps each item once. -/
theorem nodup_applyChange {items : List FavoriteItemKey} (h : items.Nodup) (change : FavoriteItemChange) :
    (applyChange items change).Nodup := by
  unfold applyChange
  split
  · split
    · exact h
    · rename_i hnew
      exact h.append (List.nodup_singleton _) (by simpa using hnew)
  · exact h.erase _

/-- So do some changes. -/
theorem nodup_applyChanges {items : List FavoriteItemKey} (h : items.Nodup) (changes : List FavoriteItemChange) :
    (applyChanges items changes).Nodup := by
  induction changes generalizing items with
  | nil => exact h
  | cons change changes ih => exact ih (nodup_applyChange h change)

/-- What a change does to one item. -/
theorem mem_applyChange {items : List FavoriteItemKey} (h : items.Nodup) (change : FavoriteItemChange)
    (item : FavoriteItemKey) :
    item ∈ applyChange items change ↔
      if change.item = item then change.operation = .add else item ∈ items := by
  obtain ⟨changed, operation⟩ := change
  cases operation with
  | add =>
    simp only [applyChange]
    by_cases heq : changed = item
    · subst heq
      by_cases hmem : changed ∈ items <;> simp [hmem]
    · by_cases hmem : changed ∈ items <;> simp [hmem, heq, Ne.symm heq]
  | remove =>
    simp only [applyChange, h.mem_erase_iff]
    by_cases heq : changed = item
    · simp [heq]
    · simp [heq, Ne.symm heq]

/-- What some changes do to an item depends on whether it was there only when none of them is about it. -/
theorem mem_applyChanges_congr {items items' : List FavoriteItemKey} (h : items.Nodup) (h' : items'.Nodup)
    (changes : List FavoriteItemChange) (item : FavoriteItemKey)
    (hmem : (∃ change ∈ changes, change.item = item) ∨ (item ∈ items ↔ item ∈ items')) :
    item ∈ applyChanges items changes ↔ item ∈ applyChanges items' changes := by
  induction changes generalizing items items' with
  | nil => simpa [applyChanges] using hmem
  | cons change changes ih =>
    refine ih (nodup_applyChange h change) (nodup_applyChange h' change) ?_
    rw [mem_applyChange h, mem_applyChange h']
    by_cases heq : change.item = item
    · simp [heq]
    · simpa [heq] using hmem

/-- Changes that are made again leave the same items. -/
theorem mem_applyChanges_again {items : List FavoriteItemKey} (h : items.Nodup) (changes : List FavoriteItemChange)
    (item : FavoriteItemKey) :
    item ∈ applyChanges (applyChanges items changes) changes ↔ item ∈ applyChanges items changes := by
  refine mem_applyChanges_congr (nodup_applyChanges h changes) h changes item ?_
  by_cases hchanged : ∃ change ∈ changes, change.item = item
  · exact .inl hchanged
  · refine .inr ?_
    -- no change is about the item
    have hkept : ∀ items : List FavoriteItemKey, items.Nodup → (item ∈ applyChanges items changes ↔ item ∈ items) := by
      clear h items
      induction changes with
      | nil => simp [applyChanges]
      | cons change changes ih =>
        intro items h
        rw [applyChanges, List.foldl_cons, ← applyChanges,
          ih (fun hrest => hchanged (by obtain ⟨c, hc, heq⟩ := hrest; exact ⟨c, List.mem_cons_of_mem _ hc, heq⟩)) _
            (nodup_applyChange h change), mem_applyChange h,
          if_neg fun heq => hchanged ⟨change, List.mem_cons_self, heq⟩]
    exact hkept items h

/-! ## Changes at once -/

/-- The sets and the additions of `try_apply`, while it goes over the changes. -/
structure Batch where
  present : Finset FavoriteItemKey
  removedOriginal : Finset FavoriteItemKey
  additions : List FavoriteItemKey
  latestAddition : FiniteMap FavoriteItemKey Nat

/-- The loop of `try_apply` before it starts. -/
def Batch.start (original : List FavoriteItemKey) : Batch := ⟨original.toFinset, ∅, [], ∅⟩

/-- One turn of the loop. -/
def Batch.change (original : Finset FavoriteItemKey) (batch : Batch) (change : FavoriteItemChange) : Batch :=
  let item := change.item
  match change.operation with
  | .add =>
    if item ∈ batch.present then batch
    else { batch with
      present := insert item batch.present
      latestAddition := batch.latestAddition.insert item batch.additions.length
      additions := batch.additions ++ [item] }
  | .remove =>
    if item ∈ batch.present then { batch with
      present := batch.present.erase item
      removedOriginal := if item ∈ original then insert item batch.removedOriginal else batch.removedOriginal
      latestAddition := batch.latestAddition.erase item }
    else batch

/-- The original items that are kept. -/
def Batch.kept (batch : Batch) (original : List FavoriteItemKey) : List FavoriteItemKey :=
  original.filter fun item => item ∈ batch.present ∧ item ∉ batch.removedOriginal

/-- The additions that are the latest of their items. -/
def Batch.added (batch : Batch) : List FavoriteItemKey :=
  batch.additions.zipIdx.filterMap fun (item, index) =>
    if batch.latestAddition.lookup item = some index then some item else none

/-- The items behind a batch of changes. -/
def Batch.items (batch : Batch) (original : List FavoriteItemKey) : List FavoriteItemKey := batch.kept original ++ batch.added

/-- `try_apply`, up to the items that it makes. -/
def batchItems (original : List FavoriteItemKey) (changes : List FavoriteItemChange) : List FavoriteItemKey :=
  (changes.foldl (Batch.change original.toFinset) (.start original)).items original

/-- What is true of a batch behind some changes, when the items are those of the changes one by one. -/
structure Batch.Sound (original : List FavoriteItemKey) (batch : Batch) (current : List FavoriteItemKey) : Prop where
  items : batch.items original = current
  present : ∀ item, item ∈ batch.present ↔ item ∈ current
  /-- An original item that is not there was removed. -/
  removed : ∀ item ∈ original, item ∉ batch.present → item ∈ batch.removedOriginal
  original : ∀ item ∈ batch.removedOriginal, item ∈ original
  /-- The latest addition of an item is an addition of that item. -/
  latest : ∀ item index, batch.latestAddition.lookup item = some index → batch.additions[index]? = some item
  /-- Only items that are there, and are not kept originals, have a latest addition. -/
  fresh : ∀ item, item ∉ batch.present → batch.latestAddition.lookup item = none

/-- The items of an addition list with one more addition, when the latest additions change for its item only. -/
theorem filterMap_zipIdx_insert (additions : List FavoriteItemKey) (latest latest' : FavoriteItemKey → Option Nat)
    (item : FavoriteItemKey) (h : ∀ other, other ≠ item → latest' other = latest other) (hnone : latest item = none)
    (hlast : latest' item = some additions.length) :
    ((additions ++ [item]).zipIdx.filterMap fun (other, index) => if latest' other = some index then some other else none) =
      (additions.zipIdx.filterMap fun (other, index) => if latest other = some index then some other else none) ++ [item] := by
  rw [List.zipIdx_append, List.filterMap_append]
  congr 1
  · refine List.filterMap_congr fun entry hentry => ?_
    obtain ⟨other, index⟩ := entry
    have hlt : index < additions.length := by
      have := List.snd_lt_of_mem_zipIdx hentry
      simpa using this
    by_cases hother : other = item
    · subst hother
      have hne : additions.length ≠ index := by omega
      simp [hnone, hlast, hne]
    · simp [h other hother]
  · simp [hlast]

/-- An item that is not there is added. -/
theorem Batch.Sound.add {original items : List FavoriteItemKey} {batch : Batch} (hs : Batch.Sound original batch items)
    {item : FavoriteItemKey} (hnew : item ∉ items) :
    Batch.Sound original { batch with
      present := insert item batch.present
      latestAddition := batch.latestAddition.insert item batch.additions.length
      additions := batch.additions ++ [item] } (items ++ [item]) := by
  have hpresent : item ∉ batch.present := fun h => hnew ((hs.present item).1 h)
  have hnone := hs.fresh item hpresent
  refine ⟨?_, ?_, ?_, hs.original, ?_, ?_⟩
  · rw [← hs.items, Batch.items, Batch.items, List.append_assoc]
    congr 1
    · -- an original item that is added again was removed
      refine List.filter_congr fun other hother => ?_
      by_cases heq : other = item
      · subst heq
        simp [hs.removed other hother hpresent]
      · simp [heq]
    · refine filterMap_zipIdx_insert batch.additions (fun other => batch.latestAddition.lookup other)
        (fun other => AList.lookup other (batch.latestAddition.insert item batch.additions.length)) item
        (fun other hne => ?_) hnone ?_
      · rw [lookup_insert, if_neg hne]
      · rw [lookup_insert, if_pos rfl]
  · intro other
    simp [hs.present, or_comm]
  · intro other hother hnot
    exact hs.removed other hother fun h => hnot (Finset.mem_insert_of_mem h)
  · intro other index hlookup
    rw [lookup_insert] at hlookup
    split at hlookup
    · rename_i heq
      obtain rfl := Option.some.inj hlookup
      simp [heq]
    · have hold := hs.latest other index hlookup
      rw [List.getElem?_append_left (List.getElem?_eq_some_iff.1 hold).1]
      exact hold
  · intro other hnot
    rw [Finset.mem_insert, not_or] at hnot
    rw [lookup_insert, if_neg hnot.1]
    exact hs.fresh other hnot.2

/-- An item that is there is removed. -/
theorem Batch.Sound.remove {original items : List FavoriteItemKey} {batch : Batch} (hs : Batch.Sound original batch items)
    (hitems : items.Nodup) {item : FavoriteItemKey} :
    Batch.Sound original { batch with
      present := batch.present.erase item
      removedOriginal := if item ∈ original.toFinset then insert item batch.removedOriginal else batch.removedOriginal
      latestAddition := batch.latestAddition.erase item } (items.erase item) := by
  refine ⟨?_, ?_, ?_, ?_, ?_, ?_⟩
  · rw [hitems.erase_eq_filter, ← hs.items, Batch.items, Batch.items, List.filter_append]
    congr 1
    · rw [Batch.kept, Batch.kept, List.filter_filter]
      refine List.filter_congr fun other _ => ?_
      by_cases heq : other = item
      · simp [heq]
      · by_cases horiginal : item ∈ original <;> simp [heq, horiginal]
    · rw [Batch.added, Batch.added, List.filter_filterMap]
      refine List.filterMap_congr fun entry _ => ?_
      obtain ⟨other, index⟩ := entry
      simp only [lookup_erase]
      by_cases heq : other = item
      · subst heq
        by_cases hlatest : batch.latestAddition.lookup other = some index <;> simp [hlatest, Option.filter]
      · by_cases hlatest : batch.latestAddition.lookup other = some index <;> simp [heq, hlatest, Option.filter]
  · intro other
    simp [hs.present, hitems.mem_erase_iff]
  · intro other hother hnot
    by_cases heq : other = item
    · subst heq
      simp [hother]
    · have hold := hs.removed other hother fun h => hnot (Finset.mem_erase.2 ⟨heq, h⟩)
      split
      · exact Finset.mem_insert_of_mem hold
      · exact hold
  · intro other hother
    simp only at hother
    split at hother
    · rename_i horiginal
      rcases Finset.mem_insert.1 hother with rfl | hother
      · exact List.mem_toFinset.1 horiginal
      · exact hs.original other hother
    · exact hs.original other hother
  · intro other index hlookup
    rw [lookup_erase] at hlookup
    split at hlookup
    · cases hlookup
    · exact hs.latest other index hlookup
  · intro other hnot
    rw [lookup_erase]
    split
    · rfl
    · rename_i hne
      exact hs.fresh other fun h => hnot (Finset.mem_erase.2 ⟨hne, h⟩)

/-- One more change. -/
theorem Batch.Sound.change {original items : List FavoriteItemKey} {batch : Batch} (hs : Batch.Sound original batch items)
    (hitems : items.Nodup) (change : FavoriteItemChange) :
    Batch.Sound original (batch.change original.toFinset change) (applyChange items change) := by
  obtain ⟨item, operation⟩ := change
  cases operation with
  | add =>
    by_cases hmem : item ∈ items
    · -- the item is there
      have hpresent := (hs.present item).2 hmem
      simp only [Batch.change, applyChange, if_pos hmem, if_pos hpresent]
      exact hs
    · have hpresent : item ∉ batch.present := fun h => hmem ((hs.present item).1 h)
      simp only [Batch.change, applyChange, if_neg hmem, if_neg hpresent]
      exact hs.add hmem
  | remove =>
    by_cases hmem : item ∈ items
    · have hpresent := (hs.present item).2 hmem
      simp only [Batch.change, applyChange, if_pos hpresent]
      exact hs.remove hitems
    · -- the item is not there
      have hpresent : item ∉ batch.present := fun h => hmem ((hs.present item).1 h)
      simp only [Batch.change, applyChange, if_neg hpresent, List.erase_of_not_mem hmem]
      exact hs

/-- Some more changes. -/
theorem Batch.Sound.changes {original items : List FavoriteItemKey} {batch : Batch} (hs : Batch.Sound original batch items)
    (hitems : items.Nodup) (changes : List FavoriteItemChange) :
    Batch.Sound original (changes.foldl (Batch.change original.toFinset) batch) (applyChanges items changes) := by
  induction changes generalizing items batch with
  | nil => exact hs
  | cons change changes ih => exact ih (hs.change hitems change) (nodup_applyChange hitems change)

/-- Nothing is changed before the first change. -/
theorem Batch.Sound.start (original : List FavoriteItemKey) : Batch.Sound original (.start original) original := by
  refine ⟨?_, by simp [Batch.start], ?_, by simp [Batch.start], ?_, fun _ _ => rfl⟩
  · simp [Batch.items, Batch.kept, Batch.added, Batch.start]
  · intro item hitem hnot
    exact absurd (List.mem_toFinset.2 hitem) hnot
  · intro item index hlookup
    cases hlookup

/-- Changes at once make the items of the changes one by one. -/
theorem batchItems_eq_applyChanges {original : List FavoriteItemKey} (h : original.Nodup)
    (changes : List FavoriteItemChange) : batchItems original changes = applyChanges original changes :=
  ((Batch.Sound.start original).changes h changes).items

/-- They are each there once. -/
theorem nodup_batchItems {original : List FavoriteItemKey} (h : original.Nodup) (changes : List FavoriteItemChange) :
    (batchItems original changes).Nodup := by
  rw [batchItems_eq_applyChanges h]
  exact nodup_applyChanges h changes

def tryApply (self : FavoriteItems) (changes : List FavoriteItemChange) (effectiveMaximum : Nat) :
    Except FavoriteItemStateError FavoriteItems := do
  Checks.ensure (changes.length ≤ maxFavoriteItemUpdateRecords) (.tooManyChanges changes.length maxFavoriteItemUpdateRecords)
  let maximum := min effectiveMaximum defaultMaxFavoriteItemListRecords
  let items := batchItems self.items changes
  Checks.ensure (¬(items.length > maximum ∧ items.length > self.items.length)) (.tooManyItems items.length maximum)
  pure ⟨items, nodup_batchItems self.nodup changes⟩

/-- What a batch that is not too long makes, and when it fails. -/
theorem tryApply_eq (self : FavoriteItems) {changes : List FavoriteItemChange}
    (h : changes.length ≤ maxFavoriteItemUpdateRecords) (effectiveMaximum : Nat) :
    self.tryApply changes effectiveMaximum =
      if (applyChanges self.items changes).length > min effectiveMaximum defaultMaxFavoriteItemListRecords ∧
          (applyChanges self.items changes).length > self.items.length then
        .error (.tooManyItems (applyChanges self.items changes).length
          (min effectiveMaximum defaultMaxFavoriteItemListRecords))
      else .ok ⟨applyChanges self.items changes, nodup_applyChanges self.nodup changes⟩ := by
  have hitems := batchItems_eq_applyChanges self.nodup changes
  unfold tryApply
  simp only [hitems, Checks.ensure, if_pos h]
  by_cases hlong : (applyChanges self.items changes).length > min effectiveMaximum defaultMaxFavoriteItemListRecords ∧
      (applyChanges self.items changes).length > self.items.length
  · rw [if_pos hlong, if_neg (not_not.2 hlong)]
    rfl
  · rw [if_neg hlong, if_pos hlong]
    rfl

/-- A batch of changes that is made at once makes the items of the changes one by one, unless these are more than the maximum and
more than there were. Made again on what it made, it does not fail and leaves the same items. -/
theorem tryApply_sequential (self : FavoriteItems) (changes : List FavoriteItemChange)
    (h : changes.length ≤ maxFavoriteItemUpdateRecords) (effectiveMaximum : Nat) :
    (∀ result, self.tryApply changes effectiveMaximum = .ok result →
      result.items = applyChanges self.items changes ∧ result.items.Nodup) ∧
    ((∃ error, self.tryApply changes effectiveMaximum = .error error) ↔
      (applyChanges self.items changes).length > min effectiveMaximum defaultMaxFavoriteItemListRecords ∧
        (applyChanges self.items changes).length > self.items.length) ∧
    (∀ result, self.tryApply changes effectiveMaximum = .ok result →
      ∃ again, result.tryApply changes effectiveMaximum = .ok again ∧ ∀ item, item ∈ again.items ↔ item ∈ result.items) := by
  rw [tryApply_eq self h]
  refine ⟨?_, ?_, ?_⟩
  · intro result hresult
    split at hresult
    · cases hresult
    · obtain rfl := Except.ok.inj hresult
      exact ⟨rfl, nodup_applyChanges self.nodup changes⟩
  · split
    · rename_i hlong
      simp [hlong]
    · rename_i hshort
      simpa using hshort
  · intro result hresult
    split at hresult
    · cases hresult
    · obtain rfl := Except.ok.inj hresult
      -- the same items are no more than there were
      have hsame := mem_applyChanges_again self.nodup changes
      have hnodup := nodup_applyChanges self.nodup changes
      have hlength := ((List.perm_ext_iff_of_nodup (nodup_applyChanges hnodup changes) hnodup).2 hsame).length_eq
      rw [tryApply_eq _ h, if_neg fun hlong => by simp only [hlength] at hlong; exact Nat.lt_irrefl _ hlong.2]
      exact ⟨_, rfl, hsame⟩

/-- An original item that is removed and added again moves to the end; one that comes and goes twice is there once. -/
theorem tryApply_sequential_moves :
    let key (n : UInt16) : FavoriteItemKey := ⟨1, n, 0⟩
    let changes := [⟨key 5, .remove⟩, ⟨key 5, .add⟩, ⟨key 7, .add⟩, ⟨key 7, .remove⟩, ⟨key 7, .add⟩]
    ∃ result, FavoriteItems.tryApply ⟨[key 5, key 6], by decide⟩ changes 3 = .ok result ∧
      result.items = [key 6, key 5, key 7] := by
  intro key changes
  obtain ⟨hok, herror, -⟩ := tryApply_sequential ⟨[key 5, key 6], by decide⟩ changes (by decide) 3
  cases h : FavoriteItems.tryApply ⟨[key 5, key 6], by decide⟩ changes 3 with
  | error error => exact absurd (herror.1 ⟨error, h⟩) (by decide)
  | ok result => exact ⟨result, rfl, (hok result h).1.trans (by decide)⟩

end FavoriteItems

end P5136
