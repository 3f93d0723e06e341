import P5136.Assets.FoldedPaths
import P5136.Assets.ThemeTabs

/-!
# Merging theme tabs twice

A merge gives every requested theme its tab and keeps the tabs of all other themes in their order. A tab with a borrowed slot is
put in again by each merge, beside tabs that may have come later in the merge before. So a second merge leaves the tabs as they
are only where that tab stands beside the right ones already.
-/

namespace P5136

namespace Assets

open List

/-! ## Lists -/

namespace ThemeTabAux

/-- An element put in stands between the two parts of the list. -/
theorem insertIdx_eq {α : Type*} {l : List α} {n : Nat} (h : n ≤ l.length) (a : α) :
    l.insertIdx n a = l.take n ++ a :: l.drop n := by
  induction n generalizing l with
  | zero => rw [insertIdx_zero, take_zero, drop_zero, nil_append]
  | succ n ih =>
    cases l with
    | nil => simp at h
    | cons b l =>
      rw [insertIdx_succ_cons, take_succ_cons, drop_succ_cons, cons_append,
        ih (Nat.le_of_succ_le_succ h)]

/-- Two lists with one element of a kind are the same when the others and the places are. -/
theorem append_cons_inj {α : Type*} {p : α → Bool} {a : α} {l r l' r' : List α} (ha : p a = true)
    (hl : ∀ b ∈ l ++ r, p b = false) (h : l ++ r = l' ++ r') :
    l ++ a :: r = l' ++ a :: r' ↔ l.length = l'.length := by
  constructor
  · intro heq
    have hidx (x y : List α) (hx : ∀ b ∈ x ++ y, p b = false) : (x ++ a :: y).findIdx p = x.length := by
      rw [findIdx_append, findIdx_eq_length_of_false fun b hb => hx b (mem_append_left _ hb)]
      simp [findIdx_cons, ha]
    rw [← hidx l r hl, ← hidx l' r' (h ▸ hl), heq]
  · intro hlen
    obtain ⟨rfl, rfl⟩ := append_inj h hlen
    rfl

end ThemeTabAux

/-! ## Attributes -/

/-- An attribute that was set has the value. -/
theorem attributeOf_setAttribute (node : BmlNode) (name value : String) :
    attributeOf (setAttribute node name value) name = some value := by
  have hfind : (setAttribute node name value).attributes.find? (fun candidate => eqIgnoreAsciiCase candidate.1 name) =
      some (((node.attributes.find? fun candidate => eqIgnoreAsciiCase candidate.1 name).getD (name, value)).1, value) := by
    refine FirstMatch.find?_upsert (f := fun candidate : String × String => (candidate.1, value)) ?_ ?_ node.attributes
    · exact ignoreCase_refl name
    · exact fun _ h => h
  exact congrArg (Option.map (·.2)) hfind

/-- Setting an attribute leaves one of another name. -/
theorem attributeOf_setAttribute_of_ne (node : BmlNode) {name other : String} (value : String)
    (h : eqIgnoreAsciiCase name other = false) : attributeOf (setAttribute node name value) other = attributeOf node other := by
  have hne (a : String × String) (ha : eqIgnoreAsciiCase a.1 name = true) : eqIgnoreAsciiCase a.1 other = false := by
    refine Bool.eq_false_iff.2 fun hother => ?_
    rw [ignoreCase_trans (ignoreCase_symm ha) hother] at h
    exact absurd h (by simp)
  have hfind : (setAttribute node name value).attributes.find? (fun candidate => eqIgnoreAsciiCase candidate.1 other) =
      node.attributes.find? fun candidate => eqIgnoreAsciiCase candidate.1 other := by
    refine FirstMatch.find?_upsert_of_disjoint (f := fun candidate : String × String => (candidate.1, value)) ?_ hne hne
      node.attributes
    exact h
  exact congrArg (Option.map (·.2)) hfind

/-- The tab of a theme has its registration identifier. -/
theorem attributeOf_newTab (sourceOrder : List BmlNode) (foldedTheme theme : String) :
    attributeOf (newTab sourceOrder foldedTheme theme) "id" = some (selectorRegistrationId theme) := by
  unfold newTab
  simp only
  split
  · exact attributeOf_setAttribute ..
  · rw [attributeOf_setAttribute_of_ne _ _ (by decide), attributeOf_setAttribute_of_ne _ _ (by decide),
      attributeOf_setAttribute]

/-! ## Borrowed slots -/

/-- One theme has a borrowed slot. -/
theorem themeSlotAlias_eq_some {theme : String} {slot : ThemeSlotAlias} :
    themeSlotAlias theme = some slot ↔
      eqIgnoreAsciiCase theme "fengshen" = true ∧ slot = ⟨"xyy", 17, "themeFengshen", "fengshen", "themeXyy"⟩ := by
  unfold themeSlotAlias
  constructor
  · intro h
    split at h
    · rename_i htheme
      exact ⟨htheme, (Option.some.inj h).symm⟩
    · cases h
  · rintro ⟨htheme, rfl⟩
    exact if_pos htheme

/-- A theme with a borrowed slot is registered under its number. -/
theorem selectorRegistrationId_of_some {theme : String} {slot : ThemeSlotAlias} (h : themeSlotAlias theme = some slot) :
    selectorRegistrationId theme = "17" := by
  obtain ⟨-, rfl⟩ := themeSlotAlias_eq_some.1 h
  unfold selectorRegistrationId
  rw [h]
  show toString 17 = "17"
  decide +kernel

/-- A theme without a borrowed slot is registered under its name. -/
theorem selectorRegistrationId_of_none {theme : String} (h : themeSlotAlias theme = none) :
    selectorRegistrationId theme = theme := by
  unfold selectorRegistrationId
  rw [h]

/-- Numbers have no case. -/
theorem ignoreCase_number {id : String} : eqIgnoreAsciiCase id "17" = true ↔ id = "17" := by
  constructor
  · intro h
    have hchars : id.toList.map Char.toLower = ['1', '7'] := beq_iff_eq.1 h
    obtain ⟨c, rest, hid, hc, hrest⟩ := map_eq_cons_iff.1 hchars
    obtain ⟨d, rest', hd, hdc, hnil⟩ := map_eq_cons_iff.1 hrest
    rw [TrackBundle.toLower_eq_iff (by decide) (by decide)] at hc hdc
    rw [map_eq_nil_iff.1 hnil] at hd
    rw [← String.toList_inj, hid, hd, hc, hdc]
    decide
  · rintro rfl
    exact ignoreCase_refl _

/-- A tab belongs to a theme: it has its registration identifier or, where the theme has a borrowed slot, its name or the name of
the slot. -/
def belongsTo (theme : String) : BmlNode → Bool :=
  idIs fun id => eqIgnoreAsciiCase id (selectorRegistrationId theme) ||
    (themeSlotAlias theme).any fun slot => eqIgnoreAsciiCase id theme || eqIgnoreAsciiCase id slot.nativeCode

/-- The tabs that a theme with a borrowed slot leaves are those that do not belong to it. -/
theorem retainTabs_eq {theme : String} {slot : ThemeSlotAlias} (h : themeSlotAlias theme = some slot) (tabs : List BmlNode) :
    retainTabs theme slot tabs = tabs.filter (!belongsTo theme ·) := by
  unfold retainTabs
  refine filter_congr fun node _ => ?_
  unfold belongsTo idIs
  rw [h, selectorRegistrationId_of_some h]
  cases attributeOf node "id" with
  | none => rfl
  | some id =>
    have hnumber : (id != "17") = !eqIgnoreAsciiCase id "17" := by
      rw [bne, Bool.not_inj_iff, Bool.eq_iff_iff, beq_iff_eq, ignoreCase_number]
    simp only [hnumber, Option.any_some, Bool.not_or]
    cases eqIgnoreAsciiCase id "17" <;> cases eqIgnoreAsciiCase id theme <;> cases eqIgnoreAsciiCase id slot.nativeCode <;> rfl

/-- The tab of a theme belongs to it. -/
theorem belongsTo_newTab (sourceOrder : List BmlNode) (foldedTheme theme : String) :
    belongsTo theme (newTab sourceOrder foldedTheme theme) = true := by
  unfold belongsTo idIs
  rw [attributeOf_newTab, Option.any_some, ignoreCase_refl, Bool.true_or]

/-! ## One theme -/

/-- There is a tab with the registration identifier of the theme. -/
def hasTab (tabs : List BmlNode) (theme : String) : Bool :=
  tabs.any (idIs fun id => eqIgnoreAsciiCase id (selectorRegistrationId theme))

/-- A tab belongs to the theme when it has its registration identifier. -/
theorem hasTab_iff {tabs : List BmlNode} {theme : String} :
    hasTab tabs theme = true ↔
      ∃ row ∈ tabs, ∃ id, attributeOf row "id" = some id ∧ eqIgnoreAsciiCase id (selectorRegistrationId theme) = true := by
  unfold hasTab idIs
  simp only [any_eq_true, Option.any_eq_true]

variable {sourceOrder tabs : List BmlNode} {entry : String × String} {theme : String}

/-- An anchor is a place of a tab. -/
theorem anchorOf_lt {candidate : BmlNode} {n : Nat} (h : anchorOf tabs candidate = some n) : n < tabs.length := by
  obtain ⟨id, -, hid⟩ := Option.bind_eq_some_iff.1 h
  exact (findIdx?_eq_some_iff_getElem.1 hid).1

/-- A tab is put in among the tabs or behind them. -/
theorem insertionIndex_le (sourceOrder tabs : List BmlNode) (foldedTheme : String) :
    insertionIndex sourceOrder tabs foldedTheme ≤ tabs.length := by
  unfold insertionIndex
  split
  · exact le_rfl
  · rename_i index hindex
    cases hbehind : (sourceOrder.drop (index + 1)).findSome? (anchorOf tabs) with
    | some n =>
      obtain ⟨candidate, -, hanchor⟩ := exists_of_findSome?_eq_some hbehind
      exact (anchorOf_lt hanchor).le
    | none =>
      rw [Option.none_or]
      cases hahead : (sourceOrder.take index).reverse.findSome? fun candidate =>
          (anchorOf tabs candidate).map (· + 1) with
      | some n =>
        obtain ⟨candidate, -, hanchor⟩ := exists_of_findSome?_eq_some hahead
        obtain ⟨m, hm, rfl⟩ := Option.map_eq_some_iff.1 hanchor
        exact anchorOf_lt hm
      | none => exact le_rfl

/-- A tab that is put in stands at its place among the others. -/
theorem insertTab_eq (sourceOrder tabs : List BmlNode) (foldedTheme theme : String) :
    ∃ before after, before ++ after = tabs ∧ before.length = insertionIndex sourceOrder tabs foldedTheme ∧
      insertTab sourceOrder tabs foldedTheme theme = before ++ newTab sourceOrder foldedTheme theme :: after := by
  have hle := insertionIndex_le sourceOrder tabs foldedTheme
  refine ⟨tabs.take (insertionIndex sourceOrder tabs foldedTheme), tabs.drop (insertionIndex sourceOrder tabs foldedTheme),
    take_append_drop .., ?_, ThemeTabAux.insertIdx_eq hle _⟩
  rw [length_take, Nat.min_eq_left hle]

/-- What merging a theme does: its tab is there and nothing changes, or its tab is put in at its place among the tabs, which for
a borrowed slot are those that do not belong to the theme. -/
theorem mergeTheme_cases (sourceOrder tabs : List BmlNode) (entry : String × String) :
    (themeSlotAlias entry.2 = none ∧ hasTab tabs entry.2 = true ∧ mergeTheme sourceOrder tabs entry = tabs) ∨
    ∃ before after, before.length = insertionIndex sourceOrder (before ++ after) entry.1 ∧
      mergeTheme sourceOrder tabs entry = before ++ newTab sourceOrder entry.1 entry.2 :: after ∧
      (themeSlotAlias entry.2 = none ∧ before ++ after = tabs ∨
        (themeSlotAlias entry.2).isSome ∧ before ++ after = tabs.filter (!belongsTo entry.2 ·)) := by
  unfold mergeTheme
  cases hslot : themeSlotAlias entry.2 with
  | some slot =>
    obtain ⟨before, after, htabs, hlen, heq⟩ := insertTab_eq sourceOrder (retainTabs entry.2 slot tabs) entry.1 entry.2
    refine .inr ⟨before, after, htabs.symm ▸ hlen, heq, .inr ⟨rfl, ?_⟩⟩
    rw [htabs, retainTabs_eq hslot]
  | none =>
    by_cases htab : hasTab tabs entry.2 = true
    · exact .inl ⟨rfl, htab, if_pos htab⟩
    · obtain ⟨before, after, htabs, hlen, heq⟩ := insertTab_eq sourceOrder tabs entry.1 entry.2
      exact .inr ⟨before, after, htabs.symm ▸ hlen, (if_neg htab).trans heq, .inl ⟨rfl, htabs⟩⟩

/-- After a theme was merged its tab is there. -/
theorem hasTab_mergeTheme_self : hasTab (mergeTheme sourceOrder tabs entry) entry.2 = true := by
  rcases mergeTheme_cases sourceOrder tabs entry with ⟨-, htab, heq⟩ | ⟨before, after, -, heq, -⟩
  · rw [heq, htab]
  · rw [heq, hasTab_iff]
    exact ⟨_, mem_append_right _ mem_cons_self, _, attributeOf_newTab .., ignoreCase_refl _⟩

/-- A theme whose tab belongs to a theme with a borrowed slot, too, is registered under the same number, unless it has the name
of the slot. -/
theorem registration_of_belongsTo {other id : String} {slot : ThemeSlotAlias} {row : BmlNode}
    (hother : themeSlotAlias other = some slot) (hnative : eqIgnoreAsciiCase theme slot.nativeCode = false)
    (hid : attributeOf row "id" = some id) (htheme : eqIgnoreAsciiCase id (selectorRegistrationId theme) = true)
    (hbelongs : belongsTo other row = true) :
    eqIgnoreAsciiCase (selectorRegistrationId other) (selectorRegistrationId theme) = true := by
  unfold belongsTo idIs at hbelongs
  rw [hid, Option.any_some, hother, Option.any_some, Bool.or_eq_true, Bool.or_eq_true] at hbelongs
  cases hslot : themeSlotAlias theme with
  | some slot' =>
    rw [selectorRegistrationId_of_some hother, selectorRegistrationId_of_some hslot]
    exact ignoreCase_refl _
  | none =>
    rcases hbelongs with hnumber | hname | hcode
    · exact ignoreCase_trans (ignoreCase_symm hnumber) htheme
    · -- a theme with the name of the other one has a slot, too
      rw [selectorRegistrationId_of_none hslot] at htheme
      have hsame := ignoreCase_trans (ignoreCase_trans (ignoreCase_symm htheme) hname) (themeSlotAlias_eq_some.1 hother).1
      rw [themeSlotAlias, if_pos hsame] at hslot
      cases hslot
    · rw [selectorRegistrationId_of_none hslot] at htheme
      rw [ignoreCase_trans (ignoreCase_symm htheme) hcode] at hnative
      cases hnative

/-- The tab of another theme stays, unless it has the name of the slot that the merged theme borrows. -/
theorem hasTab_mergeTheme (h : hasTab tabs theme = true)
    (hslot : ∀ slot, themeSlotAlias entry.2 = some slot → eqIgnoreAsciiCase theme slot.nativeCode = false) :
    hasTab (mergeTheme sourceOrder tabs entry) theme = true := by
  rcases mergeTheme_cases sourceOrder tabs entry with ⟨-, -, heq⟩ | ⟨before, after, -, heq, hkept⟩
  · rw [heq, h]
  · obtain ⟨row, hrow, id, hid, htheme⟩ := hasTab_iff.1 h
    rw [heq, hasTab_iff]
    have hstays (hmem : row ∈ before ++ after) : row ∈ before ++ newTab sourceOrder entry.1 entry.2 :: after := by
      rcases mem_append.1 hmem with hmem | hmem
      · exact mem_append_left _ hmem
      · exact mem_append_right _ (mem_cons_of_mem _ hmem)
    rcases hkept with ⟨-, hkept⟩ | ⟨hsome, hkept⟩
    · exact ⟨row, hstays (hkept ▸ hrow), id, hid, htheme⟩
    · obtain ⟨slot, hentry⟩ := Option.isSome_iff_exists.1 hsome
      by_cases hbelongs : belongsTo entry.2 row = true
      · refine ⟨_, mem_append_right _ mem_cons_self, _, attributeOf_newTab .., ?_⟩
        exact registration_of_belongsTo hentry (hslot slot hentry) hid htheme hbelongs
      · refine ⟨row, hstays (hkept ▸ mem_filter.2 ⟨hrow, ?_⟩), id, hid, htheme⟩
        simpa using hbelongs

/-- Tabs that do not belong to the theme are kept in their order. -/
theorem filter_mergeTheme {p : BmlNode → Bool} (hp : ∀ row, belongsTo entry.2 row = true → p row = false) :
    (mergeTheme sourceOrder tabs entry).filter p = tabs.filter p := by
  rcases mergeTheme_cases sourceOrder tabs entry with ⟨-, -, heq⟩ | ⟨before, after, -, heq, hkept⟩
  · rw [heq]
  · have hnew : p (newTab sourceOrder entry.1 entry.2) = false := hp _ (belongsTo_newTab ..)
    rw [heq, filter_append, filter_cons_of_neg (by simp [hnew]), ← filter_append]
    rcases hkept with ⟨-, hkept⟩ | ⟨-, hkept⟩
    · rw [hkept]
    · rw [hkept, filter_filter]
      refine filter_congr fun row _ => ?_
      cases hbelongs : belongsTo entry.2 row with
      | false => simp
      | true => simp [hp row hbelongs]

/-- A theme without a borrowed slot that has its tab changes nothing. -/
theorem mergeTheme_of_hasTab (h : themeSlotAlias entry.2 = none) (htab : hasTab tabs entry.2 = true) :
    mergeTheme sourceOrder tabs entry = tabs := by
  unfold mergeTheme
  rw [h]
  exact if_pos htab

/-! ## All themes -/

/-- The tab of a theme stays while themes are merged that do not borrow a slot of its name. -/
theorem hasTab_foldl {entries : List (String × String)} (h : hasTab tabs theme = true)
    (hslot : ∀ entry ∈ entries, ∀ slot, themeSlotAlias entry.2 = some slot → eqIgnoreAsciiCase theme slot.nativeCode = false) :
    hasTab (entries.foldl (mergeTheme sourceOrder) tabs) theme = true := by
  induction entries generalizing tabs with
  | nil => exact h
  | cons entry entries ih =>
    rw [foldl_cons]
    exact ih (hasTab_mergeTheme h (hslot entry mem_cons_self)) fun other hother =>
      hslot other (mem_cons_of_mem _ hother)

/-- Tabs that belong to none of the themes are kept in their order. -/
theorem filter_foldl {entries : List (String × String)} {p : BmlNode → Bool}
    (hp : ∀ entry ∈ entries, ∀ row, belongsTo entry.2 row = true → p row = false) :
    (entries.foldl (mergeTheme sourceOrder) tabs).filter p = tabs.filter p := by
  induction entries generalizing tabs with
  | nil => rfl
  | cons entry entries ih =>
    rw [foldl_cons, ih fun other hother => hp other (mem_cons_of_mem _ hother),
      filter_mergeTheme (hp entry mem_cons_self)]

/-- Themes without a borrowed slot that have their tabs change nothing. -/
theorem foldl_of_hasTab {entries : List (String × String)}
    (h : ∀ entry ∈ entries, themeSlotAlias entry.2 = none ∧ hasTab tabs entry.2 = true) :
    entries.foldl (mergeTheme sourceOrder) tabs = tabs := by
  induction entries with
  | nil => rfl
  | cons entry entries ih =>
    obtain ⟨hslot, htab⟩ := h entry mem_cons_self
    rw [foldl_cons, mergeTheme_of_hasTab hslot htab]
    exact ih fun other hother => h other (mem_cons_of_mem _ hother)

/-- The tab that was put in for the theme is the only one that belongs to it. -/
def Single (sourceOrder : List BmlNode) (entry : String × String) (tabs : List BmlNode) : Prop :=
  tabs.filter (belongsTo entry.2) = [newTab sourceOrder entry.1 entry.2]

/-- A theme with a borrowed slot has one tab after it was merged. -/
theorem single_mergeTheme_self (h : (themeSlotAlias entry.2).isSome) :
    Single sourceOrder entry (mergeTheme sourceOrder tabs entry) := by
  rcases mergeTheme_cases sourceOrder tabs entry with ⟨hnone, -, -⟩ | ⟨before, after, -, heq, ⟨hnone, -⟩ | ⟨-, hkept⟩⟩
  · rw [hnone] at h
    cases h
  · rw [hnone] at h
    cases h
  · have hothers : (before ++ after).filter (belongsTo entry.2) = [] := by
      rw [hkept, filter_filter]
      exact filter_eq_nil_iff.2 fun row _ => by simp
    rw [filter_append, append_eq_nil_iff] at hothers
    rw [Single, heq, filter_append, filter_cons_of_pos (belongsTo_newTab ..), hothers.1, hothers.2, nil_append]

/-- It stays the only one while themes are merged whose tabs do not belong to it. -/
theorem single_foldl {entries : List (String × String)} (h : Single sourceOrder entry tabs)
    (hothers : ∀ other ∈ entries, themeSlotAlias other.2 = none ∧
      belongsTo entry.2 (newTab sourceOrder other.1 other.2) = false) :
    Single sourceOrder entry (entries.foldl (mergeTheme sourceOrder) tabs) := by
  induction entries generalizing tabs with
  | nil => exact h
  | cons other entries ih =>
    obtain ⟨hslot, hnew⟩ := hothers other mem_cons_self
    rw [foldl_cons]
    refine ih ?_ fun third hthird => hothers third (mem_cons_of_mem _ hthird)
    rcases mergeTheme_cases sourceOrder tabs other with ⟨-, -, heq⟩ | ⟨before, after, -, heq, ⟨-, hkept⟩ | ⟨hsome, -⟩⟩
    · rw [heq]
      exact h
    · rw [Single, heq, filter_append, filter_cons_of_neg (by simp [hnew]), ← filter_append, hkept]
      exact h
    · rw [hslot] at hsome
      cases hsome

namespace ThemeMap

variable (themes : ThemeMap)

/-- The themes before and behind one of them have smaller and greater keys. -/
theorem lt_of_split {front back : List (String × String)} (h : themes.entries = front ++ entry :: back) :
    (∀ other ∈ front, other.1 < entry.1) ∧ ∀ other ∈ back, entry.1 < other.1 := by
  have hsorted := themes.sorted
  rw [h, map_append, map_cons, pairwise_append, pairwise_cons] at hsorted
  refine ⟨fun other hother => ?_, fun other hother => hsorted.2.1.1 _ (mem_map_of_mem hother)⟩
  exact hsorted.2.2 _ (mem_map_of_mem hother) _ mem_cons_self

variable {themes}

/-- A theme named like a text has that text, folded, as its key. -/
theorem key_eq {name : String} (h : entry ∈ themes.entries) (hname : eqIgnoreAsciiCase entry.2 name = true) :
    entry.1 = foldPath name := by
  rw [themes.folded entry h, foldPath_eq_of_ignoreCase hname]

/-- The key of a theme with a borrowed slot. -/
theorem key_of_slot {slot : ThemeSlotAlias} (h : entry ∈ themes.entries) (hslot : themeSlotAlias entry.2 = some slot) :
    entry.1 = "fengshen" := by
  rw [key_eq h (themeSlotAlias_eq_some.1 hslot).1]
  decide +kernel

/-- The themes before and behind one with a borrowed slot borrow none. -/
theorem none_of_split {front back : List (String × String)} {slot : ThemeSlotAlias}
    (h : themes.entries = front ++ entry :: back) (hslot : themeSlotAlias entry.2 = some slot) :
    ∀ other, other ∈ front ∨ other ∈ back → themeSlotAlias other.2 = none := by
  intro other hother
  by_contra hsome
  obtain ⟨slot', hslot'⟩ := Option.ne_none_iff_exists'.1 hsome
  have hentry : entry ∈ themes.entries := by simp [h]
  have hmem : other ∈ themes.entries := by
    rw [h, mem_append, mem_cons]
    exact hother.imp_right .inr
  have hkey : other.1 = entry.1 := (key_of_slot hmem hslot').trans (key_of_slot hentry hslot).symm
  obtain ⟨hfront, hback⟩ := themes.lt_of_split h
  rcases hother with hother | hother
  · exact String.lt_irrefl _ (hkey ▸ hfront other hother)
  · exact String.lt_irrefl _ (hkey ▸ hback other hother)

/-- After a merge every theme has its tab. -/
theorem hasTab_merged (h : entry ∈ themes.entries) :
    hasTab (themes.entries.foldl (mergeTheme sourceOrder) tabs) entry.2 = true := by
  obtain ⟨front, back, hsplit⟩ := append_of_mem h
  rw [hsplit, foldl_append, foldl_cons]
  refine hasTab_foldl hasTab_mergeTheme_self fun other hother slot hslot => ?_
  -- a theme named like the slot comes behind the one that borrows it
  refine Bool.eq_false_iff.2 fun hnative => ?_
  have hother' : other ∈ themes.entries := by simp [hsplit, hother]
  have hlt := (themes.lt_of_split hsplit).2 other hother
  have hcode : slot.nativeCode = "xyy" := by rw [(themeSlotAlias_eq_some.1 hslot).2]
  rw [key_of_slot hother' hslot, key_eq h (hcode ▸ hnative)] at hlt
  exact absurd hlt (by decide +kernel)

/-- The tab of a theme behind one with a borrowed slot does not belong to that, unless the theme has the name of the slot. -/
theorem belongsTo_of_back (sourceOrder : List BmlNode) {front back : List (String × String)} {slot : ThemeSlotAlias}
    {other : String × String}
    (hsplit : themes.entries = front ++ entry :: back) (hslot : themeSlotAlias entry.2 = some slot) (hother : other ∈ back)
    (hnative : eqIgnoreAsciiCase other.2 slot.nativeCode = false) :
    belongsTo entry.2 (newTab sourceOrder other.1 other.2) = false := by
  have hnone := none_of_split hsplit hslot other (.inr hother)
  have hother' : other ∈ themes.entries := by simp [hsplit, hother]
  unfold belongsTo idIs
  rw [attributeOf_newTab, selectorRegistrationId_of_none hnone, selectorRegistrationId_of_some hslot, hslot, Option.any_some,
    Option.any_some, hnative, Bool.or_false, Bool.or_eq_false_iff]
  constructor
  · -- a theme with the number as its name comes before the one that borrows the slot
    refine Bool.eq_false_iff.2 fun hnumber => ?_
    have hlt := (themes.lt_of_split hsplit).2 other hother
    have hentry : entry ∈ themes.entries := by simp [hsplit]
    rw [key_of_slot hentry hslot, key_eq hother' hnumber] at hlt
    exact absurd hlt (by decide +kernel)
  · refine Bool.eq_false_iff.2 fun hname => ?_
    have hsame := ignoreCase_trans hname (themeSlotAlias_eq_some.1 hslot).1
    rw [themeSlotAlias, if_pos hsame] at hnone
    cases hnone

/-- After a merge a theme with a borrowed slot has one tab, when no theme has the name of the slot. -/
theorem single_merged {slot : ThemeSlotAlias} (h : entry ∈ themes.entries) (hslot : themeSlotAlias entry.2 = some slot)
    (hnative : ∀ other ∈ themes.entries, eqIgnoreAsciiCase other.2 slot.nativeCode = false) :
    Single sourceOrder entry (themes.entries.foldl (mergeTheme sourceOrder) tabs) := by
  obtain ⟨front, back, hsplit⟩ := append_of_mem h
  rw [hsplit, foldl_append, foldl_cons]
  refine single_foldl (single_mergeTheme_self (by rw [hslot]; rfl)) fun other hother => ?_
  have hother' : other ∈ themes.entries := by simp [hsplit, hother]
  exact ⟨none_of_split hsplit hslot other (.inr hother), belongsTo_of_back _ hsplit hslot hother (hnative other hother')⟩

end ThemeMap

/-- The tab of the theme stands where it would be put in among the tabs that do not belong to the theme. -/
def AtItsPlace (sourceOrder : List BmlNode) (entry : String × String) (tabs : List BmlNode) : Prop :=
  tabs.findIdx? (belongsTo entry.2) =
    some (insertionIndex sourceOrder (tabs.filter (!belongsTo entry.2 ·)) entry.1)

/-- One tab of the theme is at its place exactly when it is put in there among those around it. -/
theorem atItsPlace_iff {left right : List BmlNode} {row : BmlNode} (hrow : belongsTo entry.2 row = true)
    (hothers : ∀ other ∈ left ++ right, belongsTo entry.2 other = false) :
    AtItsPlace sourceOrder entry (left ++ row :: right) ↔ left.length = insertionIndex sourceOrder (left ++ right) entry.1 := by
  have hkept : (left ++ row :: right).filter (!belongsTo entry.2 ·) = left ++ right := by
    rw [filter_append, filter_cons_of_neg (by simp [hrow]), ← filter_append]
    exact filter_eq_self.2 fun other hother => by simp [hothers other hother]
  have hindex : (left ++ row :: right).findIdx? (belongsTo entry.2) = some left.length := by
    rw [findIdx?_append, findIdx?_eq_none_iff.2 fun other hother => hothers other (mem_append_left _ hother),
      findIdx?_cons, if_pos hrow]
    simp
  rw [AtItsPlace, hindex, hkept, Option.some_inj]

/-- Tabs with all themes in them stay when the themes are merged again exactly when the tab with the borrowed slot is at its
place. -/
theorem again_iff {themes : ThemeMap} {slot : ThemeSlotAlias} (h : entry ∈ themes.entries)
    (hslot : themeSlotAlias entry.2 = some slot)
    (hnative : ∀ other ∈ themes.entries, eqIgnoreAsciiCase other.2 slot.nativeCode = false)
    (htabs : ∀ other ∈ themes.entries, hasTab tabs other.2 = true) (hsingle : Single sourceOrder entry tabs) :
    themes.entries.foldl (mergeTheme sourceOrder) tabs = tabs ↔ AtItsPlace sourceOrder entry tabs := by
  obtain ⟨front, back, hsplit⟩ := append_of_mem h
  have hnone := ThemeMap.none_of_split hsplit hslot
  have hmem (other : String × String) (hother : other ∈ front ∨ other ∈ back) : other ∈ themes.entries := by
    rw [hsplit, mem_append, mem_cons]
    exact hother.imp_right .inr
  -- only the turn of the theme with the borrowed slot changes the tabs
  have hfront : front.foldl (mergeTheme sourceOrder) tabs = tabs :=
    foldl_of_hasTab fun other hother => ⟨hnone other (.inl hother), htabs other (hmem other (.inl hother))⟩
  have hback : back.foldl (mergeTheme sourceOrder) (mergeTheme sourceOrder tabs entry) = mergeTheme sourceOrder tabs entry := by
    refine foldl_of_hasTab fun other hother => ⟨hnone other (.inr hother), ?_⟩
    have hother' := hmem other (.inr hother)
    refine hasTab_mergeTheme (htabs other hother') fun slot' hslot' => ?_
    obtain rfl : slot' = slot := Option.some.inj (hslot'.symm.trans hslot)
    exact hnative other hother'
  rw [hsplit, foldl_append, foldl_cons, hfront, hback]
  -- the tabs around the one with the borrowed slot, before the merge and after it
  obtain ⟨left, right, rfl, hleft, hnew, hright⟩ := filter_eq_cons_iff.1 hsingle
  have hothers : ∀ row ∈ left ++ right, belongsTo entry.2 row = false := by
    intro row hrow
    rcases mem_append.1 hrow with hrow | hrow
    · exact Bool.eq_false_iff.2 (hleft row hrow)
    · exact Bool.eq_false_iff.2 (filter_eq_nil_iff.1 hright row hrow)
  have hkept : (left ++ newTab sourceOrder entry.1 entry.2 :: right).filter (!belongsTo entry.2 ·) = left ++ right := by
    rw [filter_append, filter_cons_of_neg (by simp [hnew]), ← filter_append]
    exact filter_eq_self.2 fun row hrow => by simp [hothers row hrow]
  rcases mergeTheme_cases sourceOrder (left ++ newTab sourceOrder entry.1 entry.2 :: right) entry with
    ⟨hno, -, -⟩ | ⟨before, after, hlen, heq, ⟨hno, -⟩ | ⟨-, hrest⟩⟩
  · rw [hno] at hslot
    cases hslot
  · rw [hno] at hslot
    cases hslot
  · rw [hkept] at hrest
    rw [atItsPlace_iff hnew hothers, heq, eq_comm, ThemeTabAux.append_cons_inj hnew hothers hrest.symm, hlen, hrest]

/-! ## The law -/

/-- The config with other tabs. -/
theorem mergeThemeTabOrder_eq (sourceConfig : Option BmlNode) (themes : ThemeMap) {config order : BmlNode}
    {before after : List BmlNode} (hroot : eqIgnoreAsciiCase config.name "config" = true)
    (hchildren : config.children = before ++ order :: after) (hbefore : ∀ node ∈ before, isThemeTabOrder node = false)
    (horder : isThemeTabOrder order = true) :
    mergeThemeTabOrder sourceConfig config themes = .ok (themes.entries.map (·.1),
      { config with
        children := before ++
          { order with children := themes.entries.foldl (mergeTheme (sourceTabs sourceConfig)) order.children } :: after }) := by
  have hskip : ∀ node ∈ before, (!isThemeTabOrder node) = true := fun node hnode => by rw [hbefore node hnode]; rfl
  have hstop : ¬(!isThemeTabOrder order) = true := by simp [horder]
  have htake : config.children.takeWhile (!isThemeTabOrder ·) = before := by
    rw [hchildren, takeWhile_append_of_pos hskip, takeWhile_cons_of_neg (p := (!isThemeTabOrder ·)) hstop,
      append_nil]
  have hdrop : config.children.dropWhile (!isThemeTabOrder ·) = order :: after := by
    rw [hchildren, dropWhile_append_of_pos hskip, dropWhile_cons_of_neg (p := (!isThemeTabOrder ·)) hstop]
  unfold mergeThemeTabOrder
  rw [Checks.ensure_eq_ok (x := ()) |>.2 hroot, htake, hdrop]
  rfl

/-- The tabs of a config. -/
theorem themeTabs_eq {config order : BmlNode} {before after : List BmlNode}
    (hchildren : config.children = before ++ order :: after) (hbefore : ∀ node ∈ before, isThemeTabOrder node = false)
    (horder : isThemeTabOrder order = true) :
    config.children.find? isThemeTabOrder = some order ∧ themeTabs config = order.children := by
  have hskip : before.find? isThemeTabOrder = none := find?_eq_none.2 fun node hnode => by simp [hbefore node hnode]
  have hfind : config.children.find? isThemeTabOrder = some order := by
    rw [hchildren, find?_append, hskip, Option.none_or, find?_cons_of_pos horder]
  refine ⟨hfind, ?_⟩
  rw [themeTabs, hfind, Option.map_some, Option.getD_some]

/-- The law of a merge: what it leaves of a config. -/
structure MergeLaw (sourceConfig : Option BmlNode) (config : BmlNode) (themes : ThemeMap) (merged : BmlNode) : Prop where
  /-- Every theme has a tab with its registration identifier. -/
  tab : ∀ entry ∈ themes.entries, selectorHasTheme merged entry.2 = true
  /-- A theme with a borrowed slot has one such tab, and none under its name or the name of the slot. -/
  single : ∀ entry ∈ themes.entries, ∀ slot, themeSlotAlias entry.2 = some slot →
    ((themeTabs merged).filter (idIs (· == selectorRegistrationId entry.2))).length = 1 ∧
      ∀ row ∈ themeTabs merged, idIs (eqIgnoreAsciiCase · entry.2) row = false ∧
        idIs (eqIgnoreAsciiCase · slot.nativeCode) row = false
  /-- The tabs of no requested theme are kept in their order. -/
  kept : (themeTabs merged).filter (fun row => themes.entries.all fun entry => !belongsTo entry.2 row) =
    (themeTabs config).filter fun row => themes.entries.all fun entry => !belongsTo entry.2 row
  /-- Nothing else of the config changes. -/
  frame : ∃ before order after, config.children = before ++ order :: after ∧
    (∀ node ∈ before, isThemeTabOrder node = false) ∧ isThemeTabOrder order = true ∧
      merged = { config with children := before ++ { order with children := themeTabs merged } :: after }
  /-- Merging again changes nothing. -/
  again : mergeThemeTabOrder sourceConfig merged themes = .ok (themes.entries.map (·.1), merged)

/-- What is merged can be merged again: a theme with a borrowed slot comes without one that has the name of the slot, and its tab
is where it would be put in again. -/
def CanMergeAgain (sourceConfig : Option BmlNode) (themes : ThemeMap) (merged : BmlNode) : Prop :=
  ∀ entry ∈ themes.entries, ∀ slot, themeSlotAlias entry.2 = some slot →
    (∀ other ∈ themes.entries, eqIgnoreAsciiCase other.2 slot.nativeCode = false) ∧
      AtItsPlace (sourceTabs sourceConfig) entry (themeTabs merged)

/-- One tab that belongs to a theme with a borrowed slot has its number, and none has its name or the name of the slot. -/
theorem Single.law {slot : ThemeSlotAlias} (h : Single sourceOrder entry tabs) (hslot : themeSlotAlias entry.2 = some slot) :
    (tabs.filter (idIs (· == selectorRegistrationId entry.2))).length = 1 ∧
      ∀ row ∈ tabs, idIs (eqIgnoreAsciiCase · entry.2) row = false ∧ idIs (eqIgnoreAsciiCase · slot.nativeCode) row = false := by
  have hnumber := selectorRegistrationId_of_some hslot
  have hid : attributeOf (newTab sourceOrder entry.1 entry.2) "id" = some "17" := hnumber ▸ attributeOf_newTab ..
  obtain ⟨hname, hslot'⟩ := themeSlotAlias_eq_some.1 hslot
  have hbelongs (row : BmlNode) (id : String) (hrow : attributeOf row "id" = some id) :
      belongsTo entry.2 row = (eqIgnoreAsciiCase id "17" || (eqIgnoreAsciiCase id entry.2 || eqIgnoreAsciiCase id slot.nativeCode)) := by
    unfold belongsTo idIs
    rw [hrow, Option.any_some, hslot, Option.any_some, hnumber]
  constructor
  · have hfilter : tabs.filter (idIs (· == selectorRegistrationId entry.2)) =
        (tabs.filter (belongsTo entry.2)).filter (idIs (· == selectorRegistrationId entry.2)) := by
      rw [filter_filter]
      refine filter_congr fun row _ => ?_
      cases hrow : attributeOf row "id" with
      | none => simp [idIs, hrow]
      | some id =>
        rw [hbelongs row id hrow, idIs, hrow, Option.any_some, hnumber]
        by_cases hid : id = "17"
        · rw [hid, ignoreCase_refl, Bool.true_or, Bool.and_true]
        · rw [beq_eq_false_iff_ne.2 hid, Bool.false_and]
    rw [hfilter, h, filter_cons_of_pos (by rw [idIs, hid, Option.any_some, hnumber, beq_self_eq_true]), filter_nil]
    rfl
  · intro row hrow
    cases hrowId : attributeOf row "id" with
    | none => simp [idIs, hrowId]
    | some id =>
      rw [idIs, idIs, hrowId, Option.any_some, Option.any_some, ← Bool.or_eq_false_iff]
      refine Bool.eq_false_iff.2 fun hother => ?_
      -- such a tab belongs to the theme, so it is the one that was put in, which has the number
      have hmem : row ∈ tabs.filter (belongsTo entry.2) :=
        mem_filter.2 ⟨hrow, by rw [hbelongs row id hrowId, hother, Bool.or_true]⟩
      rw [h, mem_singleton] at hmem
      rw [hmem, hid] at hrowId
      obtain rfl : "17" = id := Option.some.inj hrowId
      rw [Bool.or_eq_true] at hother
      rcases hother with hother | hother
      · exact absurd (ignoreCase_trans hother hname) (by decide +kernel)
      · rw [hslot'] at hother
        exact absurd hother (by decide +kernel)

/-- A selector has a theme when its tabs do. -/
theorem selectorHasTheme_eq {config order : BmlNode} (h : config.children.find? isThemeTabOrder = some order) (theme : String) :
    selectorHasTheme config theme = hasTab order.children theme := by
  rw [selectorHasTheme, h]
  rfl

/-- By the law, no requested theme has the name of a slot that another one borrows. -/
theorem MergeLaw.native {sourceConfig : Option BmlNode} {config merged : BmlNode} {themes : ThemeMap}
    (h : MergeLaw sourceConfig config themes merged) {other : String × String} {slot : ThemeSlotAlias}
    (hentry : entry ∈ themes.entries) (hslot : themeSlotAlias entry.2 = some slot) (hother : other ∈ themes.entries) :
    eqIgnoreAsciiCase other.2 slot.nativeCode = false := by
  refine Bool.eq_false_iff.2 fun hnative => ?_
  have hnone : themeSlotAlias other.2 = none := by
    rw [(themeSlotAlias_eq_some.1 hslot).2] at hnative
    refine if_neg fun hname => ?_
    exact absurd (ignoreCase_trans (ignoreCase_symm hname) hnative) (by decide +kernel)
  -- its tab would be one under the name of the slot
  have htab := h.tab other hother
  cases horder : merged.children.find? isThemeTabOrder with
  | none =>
    rw [selectorHasTheme, horder] at htab
    cases htab
  | some order =>
    rw [selectorHasTheme_eq horder, hasTab_iff] at htab
    obtain ⟨row, hrow, id, hid, hsame⟩ := htab
    rw [selectorRegistrationId_of_none hnone] at hsame
    have hrow' : row ∈ themeTabs merged := by rwa [themeTabs, horder, Option.map_some, Option.getD_some]
    have hcode := ((h.single entry hentry slot hslot).2 row hrow').2
    rw [idIs, hid, Option.any_some, ignoreCase_trans hsame hnative] at hcode
    cases hcode

/-- A config stays when it is merged exactly when its tabs stay. -/
theorem mergeThemeTabOrder_eq_self_iff (sourceConfig : Option BmlNode) (themes : ThemeMap) {config order : BmlNode}
    {before after : List BmlNode} (hroot : eqIgnoreAsciiCase config.name "config" = true)
    (hchildren : config.children = before ++ order :: after) (hbefore : ∀ node ∈ before, isThemeTabOrder node = false)
    (horder : isThemeTabOrder order = true) :
    mergeThemeTabOrder sourceConfig config themes = .ok (themes.entries.map (·.1), config) ↔
      themes.entries.foldl (mergeTheme (sourceTabs sourceConfig)) order.children = order.children := by
  rw [mergeThemeTabOrder_eq sourceConfig themes hroot hchildren hbefore horder]
  generalize themes.entries.foldl (mergeTheme (sourceTabs sourceConfig)) order.children = tabs
  have hparts : ({ config with children := before ++ { order with children := tabs } :: after } : BmlNode).children =
      before ++ { order with children := tabs } :: after := rfl
  constructor
  · intro heq
    have hthemes := congrArg themeTabs (Prod.mk.inj (Except.ok.inj heq)).2
    rwa [(themeTabs_eq hparts hbefore horder).2, (themeTabs_eq hchildren hbefore horder).2] at hthemes
  · rintro rfl
    have hself : BmlNode.mk order.name order.value order.attributes order.children = order := by cases order; rfl
    have hwhole : ({ config with children := before ++ order :: after } : BmlNode) = config := by
      rw [← hchildren]
      cases config
      rfl
    rw [hself, hwhole]

/-- A config with tabs is merged, and by the law of the merge exactly when what is merged can be merged again. -/
theorem exists_merge (sourceConfig : Option BmlNode) (config : BmlNode) (themes : ThemeMap)
    (hroot : eqIgnoreAsciiCase config.name "config" = true) (horder : config.children.any isThemeTabOrder = true) :
    ∃ merged, mergeThemeTabOrder sourceConfig config themes = .ok (themes.entries.map (·.1), merged) ∧
      themeTabs merged = themes.entries.foldl (mergeTheme (sourceTabs sourceConfig)) (themeTabs config) ∧
      (MergeLaw sourceConfig config themes merged ↔ CanMergeAgain sourceConfig themes merged) := by
  obtain ⟨order, hfind⟩ := Option.isSome_iff_exists.1 ((find?_isSome).2 (any_eq_true.1 horder))
  obtain ⟨hself, before, after, hchildren, hnot⟩ := find?_eq_some_iff_append.1 hfind
  have hbefore : ∀ node ∈ before, isThemeTabOrder node = false := fun node hnode => by simpa using hnot node hnode
  refine ⟨_, mergeThemeTabOrder_eq sourceConfig themes hroot hchildren hbefore hself, ?_⟩
  rw [(themeTabs_eq hchildren hbefore hself).2]
  generalize htabs : themes.entries.foldl (mergeTheme (sourceTabs sourceConfig)) order.children = tabs
  generalize hmerged : ({ config with children := before ++ { order with children := tabs } :: after } : BmlNode) = merged
  have hparts : merged.children = before ++ { order with children := tabs } :: after := by rw [← hmerged]
  obtain ⟨hfind', htabs'⟩ := themeTabs_eq hparts hbefore hself
  have hagain := mergeThemeTabOrder_eq_self_iff sourceConfig themes (hmerged ▸ hroot) hparts hbefore hself
  have hall : ∀ entry ∈ themes.entries, hasTab tabs entry.2 = true := fun entry hentry => htabs ▸ ThemeMap.hasTab_merged hentry
  have hsingle {entry : String × String} {slot : ThemeSlotAlias} (hentry : entry ∈ themes.entries)
      (hslot : themeSlotAlias entry.2 = some slot)
      (hnative : ∀ other ∈ themes.entries, eqIgnoreAsciiCase other.2 slot.nativeCode = false) :
      Single (sourceTabs sourceConfig) entry tabs := htabs ▸ ThemeMap.single_merged hentry hslot hnative
  refine ⟨htabs', ?_, ?_⟩
  · intro hlaw entry hentry slot hslot
    have hnative (other : String × String) (hother : other ∈ themes.entries) := hlaw.native hentry hslot hother
    refine ⟨hnative, ?_⟩
    rw [htabs']
    exact (again_iff hentry hslot hnative hall (hsingle hentry hslot hnative)).1 (hagain.1 hlaw.again)
  · intro hcan
    refine ⟨fun entry hentry => (selectorHasTheme_eq hfind' _).trans (hall entry hentry), fun entry hentry slot hslot => ?_, ?_,
      ⟨before, order, after, hchildren, hbefore, hself, by rw [htabs', hmerged]⟩, hagain.2 ?_⟩
    · rw [htabs']
      exact (hsingle hentry hslot (hcan entry hentry slot hslot).1).law hslot
    · rw [htabs', (themeTabs_eq hchildren hbefore hself).2, ← htabs]
      refine filter_foldl fun entry hentry row hbelongs => ?_
      exact all_eq_false.2 ⟨entry, hentry, by simp [hbelongs]⟩
    · by_cases hsome : ∃ entry ∈ themes.entries, (themeSlotAlias entry.2).isSome
      · obtain ⟨entry, hentry, hsome⟩ := hsome
        obtain ⟨slot, hslot⟩ := Option.isSome_iff_exists.1 hsome
        obtain ⟨hnative, hplace⟩ := hcan entry hentry slot hslot
        rw [htabs'] at hplace
        exact (again_iff hentry hslot hnative hall (hsingle hentry hslot hnative)).2 hplace
      · refine foldl_of_hasTab fun entry hentry => ⟨?_, hall entry hentry⟩
        exact Option.not_isSome_iff_eq_none.1 fun h => hsome ⟨entry, hentry, h⟩

end Assets

end P5136
