import P5136.Assets.ThemeTabLaw
import P5136.Lib.Anchors

/-!
# The place of a borrowed tab

The tab with the borrowed slot is put in by its anchor among the tabs of the source, and the themes after it are put in by theirs.
A merge can be repeated when each of those leaves that tab beside its anchor, which the names in the source, in the config and of
the themes tell.
-/

namespace P5136

namespace Assets

open Anchors List

/-! ## Names -/

/-- The folded identifier of a tab. -/
def tabName (row : BmlNode) : Option String := (attributeOf row "id").map foldPath

/-- The folded identifiers of tabs. -/
def tabNames (tabs : List BmlNode) : List String := tabs.filterMap tabName

variable {sourceOrder tabs : List BmlNode} {entry other : String × String} {name : String}

@[simp]
theorem tabNames_append (front back : List BmlNode) : tabNames (front ++ back) = tabNames front ++ tabNames back :=
  filterMap_append

theorem mem_tabNames : name ∈ tabNames tabs ↔ some name ∈ tabs.map tabName := by
  simp [tabNames]

/-- A test of the folded identifier is one of the name. -/
theorem idIs_folded (row : BmlNode) (name : String) : idIs (fun id => foldPath id == name) row = (tabName row == some name) := by
  unfold idIs tabName
  cases attributeOf row "id" <;> simp

/-- The first tab of a name. -/
theorem findIdx_named (tabs : List BmlNode) (name : String) :
    tabs.findIdx? (idIs fun id => foldPath id == name) =
      if name ∈ tabNames tabs then some ((tabs.map tabName).idxOf (some name)) else none := by
  have hmap : tabs.findIdx? (idIs fun id => foldPath id == name) = (tabs.map tabName).findIdx? (· == some name) := by
    rw [findIdx?_map]
    exact congrArg (tabs.findIdx? ·) (funext fun row => idIs_folded row name)
  rw [hmap]
  split
  · rename_i hmem
    have hlt := idxOf_lt_length_of_mem (mem_tabNames.1 hmem)
    exact findIdx?_eq_some_of_exists ⟨_, mem_tabNames.1 hmem, beq_self_eq_true _⟩
  · rename_i hnot
    exact findIdx?_eq_none_iff.2 fun x hx => beq_false_of_ne fun heq => hnot (mem_tabNames.2 (heq ▸ hx))

/-- The place of the first tab of the source that is there is the one of its name. -/
theorem findSome_anchorOf (tabs rows : List BmlNode) (f : Nat → Nat) :
    rows.findSome? (fun row => (anchorOf tabs row).map f) =
      ((tabNames rows).find? (· ∈ tabNames tabs)).map fun name => f ((tabs.map tabName).idxOf (some name)) := by
  induction rows with
  | nil => rfl
  | cons row rows ih =>
    rw [findSome?_cons, ih]
    cases hrow : attributeOf row "id" with
    | none =>
      have hnames : tabNames (row :: rows) = tabNames rows := filterMap_cons_none (by rw [tabName, hrow, Option.map_none])
      rw [anchorOf, hrow, hnames]
      rfl
    | some id =>
      have hnames : tabNames (row :: rows) = foldPath id :: tabNames rows :=
        filterMap_cons_some (by rw [tabName, hrow, Option.map_some])
      rw [anchorOf, hrow, Option.bind_some, findIdx_named, hnames]
      by_cases hid : foldPath id ∈ tabNames tabs
      · rw [if_pos hid, find?_cons_of_pos (by simpa using hid)]
        rfl
      · rw [if_neg hid, find?_cons_of_neg (by simpa using hid)]
        rfl

/-- A tab is put in by the anchor of its name. -/
theorem insertionIndex_eq (sourceOrder tabs : List BmlNode) (name : String) :
    insertionIndex sourceOrder tabs name = place (tabs.map tabName) (anchor (tabNames sourceOrder) (tabNames tabs) name) := by
  have hlen : (tabs.map tabName).length = tabs.length := length_map _
  unfold insertionIndex sourceIndexOf
  by_cases hmem : name ∈ tabNames sourceOrder
  · obtain ⟨row, hrow, hname⟩ := mem_filterMap.1 hmem
    obtain ⟨row, hfind⟩ := Option.isSome_iff_exists.1
      (find?_isSome (p := (tabName · == some name)).2 ⟨row, hrow, beq_iff_eq.2 hname⟩)
    obtain ⟨hname, pre, post, rfl, hpre⟩ := find?_eq_some_iff_append.1 hfind
    rw [beq_iff_eq] at hname
    have hnot : name ∉ tabNames pre := by
      intro hin
      obtain ⟨row, hrow, heq⟩ := mem_filterMap.1 hin
      simpa [heq] using hpre row hrow
    have hindex : (pre ++ row :: post).findIdx? (idIs fun id => foldPath id == name) = some pre.length := by
      rw [findIdx?_append, findIdx_named, if_neg hnot, findIdx?_cons, idIs_folded, hname]
      simp
    have hnames : tabNames (pre ++ row :: post) = tabNames pre ++ name :: tabNames post := by
      rw [tabNames_append]
      exact congrArg _ (filterMap_cons_some hname)
    have hafter := findSome_anchorOf tabs post id
    have hahead := findSome_anchorOf tabs pre.reverse (· + 1)
    have hreverse : tabNames pre.reverse = (tabNames pre).reverse := filterMap_reverse
    simp only [Option.map_id, id_eq] at hafter
    have hdrop : (pre ++ row :: post).drop (pre.length + 1) = post := by simp
    rw [hindex, hnames, anchor_split _ _ hnot]
    simp only
    rw [hdrop, take_left, hafter, hahead, hreverse]
    cases (tabNames post).find? (· ∈ tabNames tabs) with
    | some found => rfl
    | none =>
      cases (tabNames pre).reverse.find? (· ∈ tabNames tabs) with
      | some found => rfl
      | none => exact hlen.symm
  · rw [findIdx_named, if_neg hmem, anchor, if_neg hmem, place, hlen]

/-- A tab is put in where it stands by the anchor of its name. -/
theorem length_eq_iff {before after : List BmlNode} :
    before.length = insertionIndex sourceOrder (before ++ after) name ↔
      Stands (before.map tabName) (after.map tabName) (anchor (tabNames sourceOrder) (tabNames (before ++ after)) name) := by
  rw [stands_iff, insertionIndex_eq, map_append, length_map]
  intro a ha
  rw [← map_append]
  exact mem_tabNames.1 (of_anchor ha).2

/-- The tab of a theme has its folded name. -/
theorem tabName_newTab (sourceOrder : List BmlNode) (hslot : themeSlotAlias other.2 = none) (hfold : other.1 = foldPath other.2) :
    tabName (newTab sourceOrder other.1 other.2) = some other.1 := by
  rw [tabName, attributeOf_newTab, selectorRegistrationId_of_none hslot, Option.map_some, hfold]

/-! ## The condition -/

/-- The names around the tab of a theme when that is put in: those of the tabs that do not belong to it, and those of the themes
before it, unless that has their number. -/
def namesAround (tabs : List BmlNode) (entry : String × String) (front : List (String × String)) : List String :=
  tabNames (tabs.filter (!belongsTo entry.2 ·)) ++
    (front.filter (!eqIgnoreAsciiCase ·.2 (selectorRegistrationId entry.2))).map (·.1)

/-- The names of the themes that have no tab. -/
def namesWithoutTab (tabs : List BmlNode) (back : List (String × String)) : List String :=
  (back.filter (!hasTab tabs ·.2)).map (·.1)

/-- The themes behind one that borrows a slot, which have no tab, get theirs so that its tab still stands by its anchor. -/
def KeepsPlace (sourceOrder tabs : List BmlNode) (themes : ThemeMap) (entry : String × String) : Prop :=
  KeepsAll (tabNames sourceOrder) (selectorRegistrationId entry.2) entry.1
    (namesAround tabs entry (themes.entries.filter (·.1 < entry.1)))
    (namesWithoutTab tabs (themes.entries.filter (entry.1 < ·.1)))

instance (sourceOrder tabs : List BmlNode) (themes : ThemeMap) (entry : String × String) :
    Decidable (KeepsPlace sourceOrder tabs themes entry) :=
  inferInstanceAs (Decidable (KeepsAll ..))

/-- No theme has the name of a slot that another one borrows, and the tab of that one keeps its place. -/
def KeepsPlaces (sourceConfig : Option BmlNode) (config : BmlNode) (themes : ThemeMap) : Prop :=
  ∀ entry ∈ themes.entries, ∀ slot ∈ themeSlotAlias entry.2,
    (∀ other ∈ themes.entries, eqIgnoreAsciiCase other.2 slot.nativeCode = false) ∧
      KeepsPlace (sourceTabs sourceConfig) (themeTabs config) themes entry

instance (sourceConfig : Option BmlNode) (config : BmlNode) (themes : ThemeMap) :
    Decidable (KeepsPlaces sourceConfig config themes) :=
  inferInstanceAs (Decidable (∀ entry ∈ themes.entries, ∀ slot ∈ themeSlotAlias entry.2, _ ∧ _))

/-- The source has no name twice, and none that is the number of a borrowed slot; a tab that has the folded name of a theme has its
name. -/
structure ListedOnce (sourceOrder tabs : List BmlNode) (themes : ThemeMap) : Prop where
  nodup : (tabNames sourceOrder).Nodup
  number : ∀ entry ∈ themes.entries, (themeSlotAlias entry.2).isSome → selectorRegistrationId entry.2 ∉ tabNames sourceOrder
  plain : ∀ entry ∈ themes.entries, ∀ row ∈ tabs, ∀ id, attributeOf row "id" = some id →
    foldPath id = entry.1 → eqIgnoreAsciiCase id entry.2 = true

/-! ## The tabs around the borrowed one -/

/-- A tab that belongs to the theme is between others that do not, which have the given names. -/
structure Around (entry : String × String) (here : List String) (row : BmlNode) (left right : List BmlNode) : Prop where
  own : belongsTo entry.2 row = true
  name : tabName row = some (selectorRegistrationId entry.2)
  others : ∀ other ∈ left ++ right, belongsTo entry.2 other = false
  names : ∀ x, x ∈ here ↔ x ∈ tabNames (left ++ right)

variable {here : List String} {row : BmlNode} {left right : List BmlNode}

/-- Another tab is put in right or left of the borrowed one. -/
theorem Around.put (h : Around entry here row left right) (hslot : themeSlotAlias other.2 = none)
    (hfold : other.1 = foldPath other.2) (hnot : belongsTo entry.2 (newTab sourceOrder other.1 other.2) = false)
    (htab : hasTab (left ++ row :: right) other.2 = false) :
    ∃ left' right', mergeTheme sourceOrder (left ++ row :: right) other = left' ++ row :: right' ∧
      Around entry (other.1 :: here) row left' right' ∧
      (selectorRegistrationId entry.2 ∉ tabNames sourceOrder →
        PutIn (selectorRegistrationId entry.2) other.1 (anchor (tabNames sourceOrder) here other.1) (left.map tabName)
          (right.map tabName) (left'.map tabName) (right'.map tabName)) := by
  have hname := tabName_newTab sourceOrder hslot hfold
  rcases mergeTheme_cases sourceOrder (left ++ row :: right) other with ⟨-, hhas, -⟩ | ⟨before, after, hlen, heq, hkept⟩
  · rw [htab] at hhas
    cases hhas
  · obtain ⟨-, hkept⟩ : _ ∧ before ++ after = left ++ row :: right := by
      rcases hkept with hkept | ⟨hsome, -⟩
      · exact hkept
      · rw [hslot] at hsome
        cases hsome
    have hits := length_eq_iff.1 hlen
    have hanchor (hmark : selectorRegistrationId entry.2 ∉ tabNames sourceOrder) :
        anchor (tabNames sourceOrder) (tabNames (before ++ after)) other.1 = anchor (tabNames sourceOrder) here other.1 := by
      refine anchor_congr fun x hx => ?_
      have hne : x ≠ selectorRegistrationId entry.2 := fun heq => hmark (heq ▸ hx)
      rw [hkept, h.names, mem_tabNames, mem_tabNames]
      simp [h.name, hne]
    have hnames (l r : List BmlNode) (hperm : ∀ x, x ∈ l ++ r ↔ x = newTab sourceOrder other.1 other.2 ∨ x ∈ left ++ right) :
        Around entry (other.1 :: here) row l r := by
      refine ⟨h.own, h.name, fun x hx => ?_, fun x => ?_⟩
      · rcases (hperm x).1 hx with rfl | hx
        · exact hnot
        · exact h.others x hx
      · rw [mem_cons, h.names, tabNames, tabNames, mem_filterMap, mem_filterMap]
        simp only [hperm]
        constructor
        · rintro (rfl | ⟨node, hnode, hx⟩)
          · exact ⟨_, .inl rfl, hname⟩
          · exact ⟨node, .inr hnode, hx⟩
        · rintro ⟨node, rfl | hnode, hx⟩
          · exact .inl (Option.some.inj (hx.symm.trans hname))
          · exact .inr ⟨node, hnode, hx⟩
    rcases append_eq_cases hkept with ⟨near, rfl, rfl⟩ | ⟨near, rfl, rfl⟩
    · refine ⟨left, near ++ newTab sourceOrder other.1 other.2 :: after, by rw [heq, append_assoc]; rfl,
        hnames _ _ fun x => ?_, fun hmark => .inl ⟨near.map tabName, after.map tabName, map_append, rfl, ?_, ?_⟩⟩
      · simp only [mem_append, mem_cons, or_left_comm]
      · rw [map_append, map_cons, hname]
      · rw [hanchor hmark, map_append, map_cons, h.name] at hits
        exact hits
    · refine ⟨before ++ newTab sourceOrder other.1 other.2 :: near, right, by rw [heq, append_assoc]; rfl,
        hnames _ _ fun x => ?_, fun hmark => .inr ⟨before.map tabName, near.map tabName, map_append, ?_, rfl, ?_⟩⟩
      · simp only [mem_append, mem_cons, or_assoc, or_left_comm]
      · rw [map_append, map_cons, hname]
      · rw [hanchor hmark, map_append, map_cons, h.name] at hits
        exact hits

/-! ## The themes after the borrowed one -/

/-- A tab with the name of a theme that does not belong to another one does not belong to that either. -/
theorem idIs_of_belongsTo {theme : String} (h : belongsTo theme (newTab sourceOrder other.1 other.2) = false)
    (hrow : belongsTo theme row = true) : idIs (fun id => eqIgnoreAsciiCase id (selectorRegistrationId other.2)) row = false := by
  refine Bool.eq_false_iff.2 fun hsame => ?_
  unfold belongsTo idIs at h hrow
  unfold idIs at hsame
  rw [attributeOf_newTab, Option.any_some] at h
  cases hid : attributeOf row "id" with
  | none => simp [hid] at hsame
  | some id =>
    rw [hid, Option.any_some] at hrow hsame
    have hcase (x : String) : eqIgnoreAsciiCase id x = eqIgnoreAsciiCase (selectorRegistrationId other.2) x := by
      rw [eqIgnoreAsciiCase, eqIgnoreAsciiCase, beq_iff_eq.1 hsame]
    simp only [hcase] at hrow
    rw [h] at hrow
    cases hrow

/-- The tab of a theme does not belong to one of another name. -/
theorem belongsTo_of_ne {third : String × String} (hslot : themeSlotAlias other.2 = none) (hslot' : themeSlotAlias third.2 = none)
    (hne : foldPath other.2 ≠ foldPath third.2) : belongsTo other.2 (newTab sourceOrder third.1 third.2) = false := by
  unfold belongsTo idIs
  rw [attributeOf_newTab, hslot, selectorRegistrationId_of_none hslot, selectorRegistrationId_of_none hslot', Option.any_some,
    Option.any_none, Bool.or_false]
  exact Bool.eq_false_iff.2 fun hsame => hne (foldPath_eq_of_ignoreCase hsame).symm

/-- Merging themes of other names puts in no tab of a theme and takes none out. -/
theorem hasTab_foldl_eq (sourceOrder tabs : List BmlNode) (entries : List (String × String)) (third : String × String)
    (h : ∀ other ∈ entries, belongsTo other.2 (newTab sourceOrder third.1 third.2) = false) :
    hasTab (entries.foldl (mergeTheme sourceOrder) tabs) third.2 = hasTab tabs third.2 := by
  have hany (l : List BmlNode) : hasTab l third.2 =
      (l.filter (idIs fun id => eqIgnoreAsciiCase id (selectorRegistrationId third.2))).any fun _ => true := by
    rw [hasTab, any_filter]
    simp
  rw [hany, hany, filter_foldl fun other hother row => idIs_of_belongsTo (h other hother)]

/-- The themes after the borrowed one leave its tab where it stands by its anchor, when each of them keeps it there. In a source
that has no name twice it is broken off for good when one of them does not. -/
theorem Around.run (name : String) {back : List (String × String)} (h : Around entry here row left right)
    (hback : ∀ other ∈ back, themeSlotAlias other.2 = none ∧ other.1 = foldPath other.2 ∧
      belongsTo entry.2 (newTab sourceOrder other.1 other.2) = false) (hkeys : (back.map (·.1)).Nodup) :
    ∃ here' left' right', back.foldl (mergeTheme sourceOrder) (left ++ row :: right) = left' ++ row :: right' ∧
      Around entry here' row left' right' ∧
      (Stands (left.map tabName) (right.map tabName) (anchor (tabNames sourceOrder) here name) →
        KeepsAll (tabNames sourceOrder) (selectorRegistrationId entry.2) name here (namesWithoutTab (left ++ row :: right) back) →
        Stands (left'.map tabName) (right'.map tabName) (anchor (tabNames sourceOrder) here' name)) ∧
      ((tabNames sourceOrder).Nodup → selectorRegistrationId entry.2 ∉ tabNames sourceOrder → name ∉ here →
        (∀ other ∈ back, other.1 ≠ name) → (∀ x ∈ namesWithoutTab (left ++ row :: right) back, x ∉ here) →
        (Broken (tabNames sourceOrder) name here (left.map tabName) (right.map tabName) ∨
          Stands (left.map tabName) (right.map tabName) (anchor (tabNames sourceOrder) here name) ∧
            ¬KeepsAll (tabNames sourceOrder) (selectorRegistrationId entry.2) name here
              (namesWithoutTab (left ++ row :: right) back)) →
        Broken (tabNames sourceOrder) name here' (left'.map tabName) (right'.map tabName)) := by
  induction back generalizing here left right with
  | nil =>
    refine ⟨here, left, right, rfl, h, fun hstands _ => hstands, fun _ _ _ _ _ hcase => ?_⟩
    rcases hcase with hbroken | ⟨-, hkeeps⟩
    · exact hbroken
    · exact absurd trivial hkeeps
  | cons other back ih =>
    obtain ⟨hslot, hfold, hnot⟩ := hback other mem_cons_self
    obtain ⟨hfar, hkeys⟩ := nodup_cons.1 hkeys
    have hrest := fun third (hthird : third ∈ back) => hback third (mem_cons_of_mem _ hthird)
    rw [foldl_cons]
    cases htab : hasTab (left ++ row :: right) other.2 with
    | true =>
      have hlater : namesWithoutTab (left ++ row :: right) (other :: back) = namesWithoutTab (left ++ row :: right) back := by
        rw [namesWithoutTab, filter_cons_of_neg (by simp [htab])]
        rfl
      rw [mergeTheme_of_hasTab hslot htab, hlater]
      obtain ⟨here', left', right', heq, haround, hstands, hbroken⟩ := ih h hrest hkeys
      exact ⟨here', left', right', heq, haround, hstands, fun hnodup hmark hname hne =>
        hbroken hnodup hmark hname fun third hthird => hne third (mem_cons_of_mem _ hthird)⟩
    | false =>
      obtain ⟨left₁, right₁, heq₁, haround₁, hput⟩ := h.put hslot hfold hnot htab
      have hlater : namesWithoutTab (left ++ row :: right) (other :: back) =
          other.1 :: namesWithoutTab (left₁ ++ row :: right₁) back := by
        rw [namesWithoutTab, filter_cons_of_pos (by simp [htab]), map_cons, namesWithoutTab, ← heq₁]
        congr 2
        refine filter_congr fun third hthird => ?_
        obtain ⟨hslot', hfold', -⟩ := hrest third hthird
        have hne : foldPath other.2 ≠ foldPath third.2 := by
          rw [← hfold, ← hfold']
          exact fun hsame => hfar (mem_map.2 ⟨third, hthird, hsame.symm⟩)
        have hsame := hasTab_foldl_eq sourceOrder (left ++ row :: right) [other] third fun o ho =>
          mem_singleton.1 ho ▸ belongsTo_of_ne hslot hslot' hne
        rw [← hsame]
        rfl
      obtain ⟨here', left', right', heq, haround, hstands, hbroken⟩ := ih haround₁ hrest hkeys
      have hhere (x : String) : x ∈ here ↔ some x ∈ left.map tabName ++ right.map tabName := by
        rw [h.names, mem_tabNames, map_append]
      refine ⟨here', left', right', heq₁ ▸ heq, haround, fun hown hkeeps => ?_, fun hnodup hmark hname hne hnew hcase => ?_⟩
      · rw [hlater] at hkeeps
        exact hstands ((hput hkeeps.1.1).stands hhere hown hkeeps.1) hkeeps.2
      · rw [hlater] at hnew hcase
        have hother := hnew other.1 mem_cons_self
        have hne' := hne other mem_cons_self
        refine hbroken hnodup hmark (by simp [hname, Ne.symm hne']) (fun third hthird => hne third (mem_cons_of_mem _ hthird))
          (fun x hx => ?_) ?_
        · rw [mem_cons, not_or]
          refine ⟨?_, hnew x (mem_cons_of_mem _ hx)⟩
          rintro rfl
          exact hfar ((filter_sublist.map _).subset hx)
        · rcases hcase with hcase | ⟨hown, hkeeps⟩
          · exact .inl ((hput hmark).broken hnodup hmark hother hcase)
          · by_cases hkeep : Keeps (tabNames sourceOrder) (selectorRegistrationId entry.2) name here other.1
            · exact .inr ⟨(hput hmark).stands hhere hown hkeep, fun hall => hkeeps ⟨hkeep, hall⟩⟩
            · exact .inl ((hput hmark).broken_of_stands hnodup hmark hname hother hne' hhere hown hkeep)

/-! ## The themes before it -/

/-- The names around the borrowed tab are those in the config and of the themes before. -/
theorem mem_namesAround {front : List (String × String)} {slot : ThemeSlotAlias} (hslot : themeSlotAlias entry.2 = some slot)
    (hfront : ∀ other ∈ front, themeSlotAlias other.2 = none ∧ other.1 = foldPath other.2 ∧
      eqIgnoreAsciiCase other.2 slot.nativeCode = false) :
    name ∈ namesAround tabs entry front ↔
      name ∈ tabNames ((front.foldl (mergeTheme sourceOrder) tabs).filter (!belongsTo entry.2 ·)) := by
  induction front generalizing tabs with
  | nil => simp [namesAround]
  | cons other front ih =>
    obtain ⟨hnone, hfold, hnative⟩ := hfront other mem_cons_self
    rw [foldl_cons, ← ih fun third hthird => hfront third (mem_cons_of_mem _ hthird)]
    have hbelongs : belongsTo entry.2 (newTab sourceOrder other.1 other.2) =
        eqIgnoreAsciiCase other.2 (selectorRegistrationId entry.2) := by
      have hname : eqIgnoreAsciiCase other.2 entry.2 = false := by
        refine Bool.eq_false_iff.2 fun hsame => ?_
        rw [themeSlotAlias, if_pos (ignoreCase_trans hsame (themeSlotAlias_eq_some.1 hslot).1)] at hnone
        cases hnone
      unfold belongsTo idIs
      rw [attributeOf_newTab, selectorRegistrationId_of_none hnone, hslot, Option.any_some, Option.any_some, hname, hnative,
        Bool.or_false, Bool.or_false]
    have hstep : name ∈ tabNames ((mergeTheme sourceOrder tabs other).filter (!belongsTo entry.2 ·)) ↔
        name ∈ tabNames (tabs.filter (!belongsTo entry.2 ·)) ∨
          eqIgnoreAsciiCase other.2 (selectorRegistrationId entry.2) = false ∧ name = other.1 := by
      rcases mergeTheme_cases sourceOrder tabs other with ⟨-, htab, heq⟩ | ⟨before, after, -, heq, hkept⟩
      · rw [heq]
        refine ⟨.inl, ?_⟩
        rintro (hname | ⟨hnumber, rfl⟩)
        · exact hname
        · -- the tab that is there has the name and does not belong to the borrowed slot either
          obtain ⟨row, hrow, id, hid, hsame⟩ := hasTab_iff.1 htab
          refine mem_filterMap.2 ⟨row, mem_filter.2 ⟨hrow, ?_⟩, ?_⟩
          · rw [Bool.not_eq_true']
            refine Bool.eq_false_iff.2 fun hown => ?_
            have hnot := idIs_of_belongsTo (hbelongs.trans hnumber) hown
            rw [idIs, hid, Option.any_some, hsame] at hnot
            cases hnot
          · rw [selectorRegistrationId_of_none hnone] at hsame
            rw [tabName, hid, Option.map_some, hfold, foldPath_eq_of_ignoreCase hsame]
      · obtain rfl : before ++ after = tabs := by
          rcases hkept with ⟨-, hkept⟩ | ⟨hsome, -⟩
          · exact hkept
          · rw [hnone] at hsome
            cases hsome
        rw [heq, filter_append, filter_cons, hbelongs, filter_append, tabNames_append, tabNames_append]
        cases eqIgnoreAsciiCase other.2 (selectorRegistrationId entry.2) with
        | true => simp
        | false =>
          have hcons : tabNames (newTab sourceOrder other.1 other.2 :: after.filter (!belongsTo entry.2 ·)) =
              other.1 :: tabNames (after.filter (!belongsTo entry.2 ·)) :=
            filterMap_cons_some (tabName_newTab _ hnone hfold)
          simp only [Bool.not_false, if_true, hcons, mem_append, mem_cons, true_and]
          rw [or_assoc, or_comm (a := _ = _)]
    rw [namesAround, namesAround, mem_append, mem_append, hstep, filter_cons]
    cases eqIgnoreAsciiCase other.2 (selectorRegistrationId entry.2) with
    | true => simp
    | false =>
      simp only [Bool.not_false, if_true, map_cons, mem_cons, true_and, or_assoc]

/-- The themes of a map before and behind one of them, by their keys. -/
theorem ThemeMap.filter_lt {themes : ThemeMap} {front back : List (String × String)}
    (h : themes.entries = front ++ entry :: back) :
    themes.entries.filter (·.1 < entry.1) = front ∧ themes.entries.filter (entry.1 < ·.1) = back := by
  obtain ⟨hfront, hback⟩ := themes.lt_of_split h
  rw [h, filter_append, filter_append, filter_cons_of_neg (by simp), filter_cons_of_neg (by simp)]
  constructor
  · rw [filter_eq_self.2 fun other hother => decide_eq_true (hfront other hother), filter_eq_nil_iff.2, append_nil]
    exact fun other hother => by simpa using (String.lt_asymm (hback other hother))
  · rw [filter_eq_nil_iff.2, nil_append, filter_eq_self.2 fun other hother => decide_eq_true (hback other hother)]
    exact fun other hother => by simpa using (String.lt_asymm (hfront other hother))

/-! ## The law -/

/-- The borrowed tab is at its place after a merge when every theme keeps it there; where nothing is listed twice only then. -/
theorem atItsPlace_merged {themes : ThemeMap} {slot : ThemeSlotAlias}
    (hentry : entry ∈ themes.entries) (hslot : themeSlotAlias entry.2 = some slot)
    (hnative : ∀ other ∈ themes.entries, eqIgnoreAsciiCase other.2 slot.nativeCode = false) :
    (KeepsPlace sourceOrder tabs themes entry →
      AtItsPlace sourceOrder entry (themes.entries.foldl (mergeTheme sourceOrder) tabs)) ∧
    (ListedOnce sourceOrder tabs themes →
      AtItsPlace sourceOrder entry (themes.entries.foldl (mergeTheme sourceOrder) tabs) →
      KeepsPlace sourceOrder tabs themes entry) := by
  obtain ⟨front, back, hsplit⟩ := append_of_mem hentry
  obtain ⟨hltFront, hltBack⟩ := themes.lt_of_split hsplit
  obtain ⟨hfilter, hfilter'⟩ := ThemeMap.filter_lt hsplit
  have hapart (other : String × String) (hother : other ∈ front) (third : String × String) (hthird : third ∈ back) :
      other.1 ≠ third.1 := fun heq => String.lt_asymm (hltBack third hthird) (heq ▸ hltFront other hother)
  have hmem (other : String × String) (hother : other ∈ front ∨ other ∈ back) : other ∈ themes.entries := by
    rw [hsplit, mem_append, mem_cons]
    exact hother.imp_right .inr
  have hnone := ThemeMap.none_of_split hsplit hslot
  have hfolded (other : String × String) (hother : other ∈ front ∨ other ∈ back) := themes.folded other (hmem other hother)
  have hnot (other : String × String) (hother : other ∈ back) :=
    ThemeMap.belongsTo_of_back sourceOrder hsplit hslot hother (hnative other (hmem other (.inr hother)))
  unfold KeepsPlace
  rw [hfilter, hfilter', hsplit, foldl_append, foldl_cons]
  -- the borrowed tab is put in at its place among those of the config and of the themes before
  generalize hmerged : front.foldl (mergeTheme sourceOrder) tabs = merged
  obtain ⟨before, after, hlen, heq, hkept⟩ : ∃ before after,
      before.length = insertionIndex sourceOrder (before ++ after) entry.1 ∧
        mergeTheme sourceOrder merged entry = before ++ newTab sourceOrder entry.1 entry.2 :: after ∧
        before ++ after = merged.filter (!belongsTo entry.2 ·) := by
    rcases mergeTheme_cases sourceOrder merged entry with
      ⟨hno, -, -⟩ | ⟨before, after, hlen, heq, ⟨hno, -⟩ | ⟨-, hkept⟩⟩
    · rw [hno] at hslot
      cases hslot
    · rw [hno] at hslot
      cases hslot
    · exact ⟨before, after, hlen, heq, hkept⟩
  have haround : Around entry (namesAround tabs entry front) (newTab sourceOrder entry.1 entry.2)
      before after := by
    refine ⟨belongsTo_newTab .., ?_, fun other hother => ?_, fun x => ?_⟩
    · rw [tabName, attributeOf_newTab, selectorRegistrationId_of_some hslot]
      decide +kernel
    · rw [hkept] at hother
      simpa using (mem_filter.1 hother).2
    · rw [hkept, ← hmerged]
      exact mem_namesAround hslot fun other hother =>
        ⟨hnone other (.inl hother), hfolded other (.inl hother), hnative other (hmem other (.inl hother))⟩
  have hstands := length_eq_iff.1 hlen
  rw [anchor_congr fun x _ => (haround.names x).symm] at hstands
  -- the themes behind it have tabs exactly when they have one in the config
  have hlater : namesWithoutTab tabs back =
      namesWithoutTab (before ++ newTab sourceOrder entry.1 entry.2 :: after) back := by
    rw [namesWithoutTab, namesWithoutTab, ← heq, ← hmerged]
    refine congrArg _ (filter_congr fun third hthird => ?_)
    have hsame := hasTab_foldl_eq sourceOrder tabs (front ++ [entry]) third fun other hother => ?_
    · rw [← hsame, foldl_append]
      rfl
    · rcases mem_append.1 hother with hother | hother
      · refine belongsTo_of_ne (hnone other (.inl hother)) (hnone third (.inr hthird)) ?_
        rw [← hfolded other (.inl hother), ← hfolded third (.inr hthird)]
        exact hapart other hother third hthird
      · rw [mem_singleton.1 hother]
        exact hnot third hthird
  have hkeys : (back.map (·.1)).Nodup := by
    have hsorted := themes.sorted
    rw [hsplit, map_append, map_cons, pairwise_append, pairwise_cons] at hsorted
    exact hsorted.2.1.2.imp fun {a b} (hlt : a < b) (heq : a = b) => String.lt_irrefl b (heq ▸ hlt)
  obtain ⟨here', left', right', hrun, haround', hkeeps, hbroken⟩ := haround.run entry.1
    (fun other hother => ⟨hnone other (.inr hother), hfolded other (.inr hother), hnot other hother⟩) hkeys
  rw [heq, hrun, atItsPlace_iff haround'.own haround'.others, length_eq_iff, anchor_congr fun x _ => (haround'.names x).symm, hlater]
  refine ⟨hkeeps hstands, fun honce hat => ?_⟩
  by_contra hbreaks
  -- a name that is listed is one of a tab of the theme
  have hlisted (x : String × String) (hx : x ∈ themes.entries) (hfront : ∀ other ∈ front, other.1 ≠ x.1)
      (hin : x.1 ∈ namesAround tabs entry front) :
      ∃ row ∈ tabs, ∃ id, attributeOf row "id" = some id ∧ eqIgnoreAsciiCase id x.2 = true ∧
        belongsTo entry.2 row = false := by
    rcases mem_append.1 hin with hin | hin
    · obtain ⟨row, hrow, hname⟩ := mem_filterMap.1 hin
      obtain ⟨id, hid, hfold⟩ := Option.map_eq_some_iff.1 hname
      obtain ⟨hrow, hown⟩ := mem_filter.1 hrow
      exact ⟨row, hrow, id, hid, honce.plain x hx row hrow id hid hfold, by simpa using hown⟩
    · obtain ⟨other, hother, hsame⟩ := mem_map.1 hin
      exact absurd hsame (hfront other (mem_filter.1 hother).1)
  refine (hbroken honce.nodup (honce.number entry hentry (by rw [hslot]; rfl)) (fun hin => ?_)
    (fun other hother hsame => String.lt_irrefl _ (hsame ▸ hltBack other hother)) (fun x hx hin => ?_)
    (.inr ⟨hstands, hbreaks⟩)).not_stands hat
  · obtain ⟨row, -, id, hid, hsame, hown⟩ := hlisted entry hentry
      (fun other hother heq => String.lt_irrefl _ (heq ▸ hltFront other hother)) hin
    unfold belongsTo idIs at hown
    rw [hid, Option.any_some, hslot, Option.any_some, hsame, Bool.true_or, Bool.or_true] at hown
    cases hown
  · rw [← hlater] at hx
    obtain ⟨third, hthird, rfl⟩ := mem_map.1 hx
    obtain ⟨hthird, htab⟩ := mem_filter.1 hthird
    obtain ⟨row, hrow, id, hid, hsame, -⟩ := hlisted third (hmem third (.inr hthird))
      (fun other hother => hapart other hother third hthird) hin
    have hhas : hasTab tabs third.2 = true :=
      hasTab_iff.2 ⟨row, hrow, id, hid, by rwa [selectorRegistrationId_of_none (hnone third (.inr hthird))]⟩
    rw [hhas] at htab
    cases htab

/-- A config with tabs is merged, by the law of the merge when the borrowed tab keeps its place; where nothing is listed twice
only then. -/
theorem mergeThemeTabOrder_lawful (sourceConfig : Option BmlNode) (config : BmlNode) (themes : ThemeMap)
    (hroot : eqIgnoreAsciiCase config.name "config" = true) (horder : config.children.any isThemeTabOrder = true) :
    ∃ merged, mergeThemeTabOrder sourceConfig config themes = .ok (themes.entries.map (·.1), merged) ∧
      (KeepsPlaces sourceConfig config themes → MergeLaw sourceConfig config themes merged) ∧
      (ListedOnce (sourceTabs sourceConfig) (themeTabs config) themes →
        (MergeLaw sourceConfig config themes merged ↔ KeepsPlaces sourceConfig config themes)) := by
  obtain ⟨merged, heq, htabs, hiff⟩ := exists_merge sourceConfig config themes hroot horder
  have hlaw (h : KeepsPlaces sourceConfig config themes) : MergeLaw sourceConfig config themes merged := by
    refine hiff.2 fun entry hentry slot hslot => ?_
    obtain ⟨hnative, hkeeps⟩ := h entry hentry slot hslot
    exact ⟨hnative, htabs ▸ (atItsPlace_merged hentry hslot hnative).1 hkeeps⟩
  refine ⟨merged, heq, hlaw, fun honce => ⟨fun h entry hentry slot hslot => ?_, hlaw⟩⟩
  obtain ⟨hnative, hat⟩ := hiff.1 h entry hentry slot hslot
  exact ⟨hnative, (atItsPlace_merged hentry hslot hnative).2 honce (htabs ▸ hat)⟩

/-- A tab with an identifier. -/
def plainTab (id : String) : BmlNode := ⟨"theme", "", [("id", id)], []⟩

/-- A selector with tabs. -/
def plainSelector (ids : List String) : BmlNode := ⟨"config", "", [], [⟨"themeTabOrder", "", [], ids.map plainTab⟩]⟩

/-- The themes of a merge into a selector that has one of them. -/
def fengshenIceWkc : ThemeMap where
  entries := [("fengshen", "fengshen"), ("ice", "ice"), ("wkc", "wkc")]
  sorted := by decide +kernel
  folded := by decide +kernel

/-- The borrowed tab is put in before the one of another theme; of the two behind it, one is put in elsewhere and one at the end,
and it is still where it was. -/
theorem mergeThemeTabOrder_lawful_ice :
    ∃ merged, mergeThemeTabOrder (some (plainSelector ["ice", "mine", "fengshen", "china", "forest"]))
        (plainSelector ["china", "mine", "forest", "xyy"]) fengshenIceWkc = .ok (["fengshen", "ice", "wkc"], merged) ∧
      MergeLaw (some (plainSelector ["ice", "mine", "fengshen", "china", "forest"]))
        (plainSelector ["china", "mine", "forest", "xyy"]) fengshenIceWkc merged := by
  obtain ⟨merged, heq, hlaw, -⟩ := mergeThemeTabOrder_lawful (some (plainSelector ["ice", "mine", "fengshen", "china", "forest"]))
    (plainSelector ["china", "mine", "forest", "xyy"]) fengshenIceWkc (by decide +kernel) (by decide +kernel)
  exact ⟨merged, heq, hlaw (by decide +kernel)⟩

/-! ## A merge that is not the last -/

/-- Two themes without a tab. -/
def fengshenAndMine : ThemeMap where
  entries := [("fengshen", "fengshen"), ("mine", "mine")]
  sorted := by decide +kernel
  folded := by decide +kernel

/-- The identifiers of the tabs that a merge leaves. -/
def tabIds (config : BmlNode) : List (Option String) := (themeTabs config).map (attributeOf · "id")

/-- The config that a merge leaves, the old one when it fails. -/
def mergedInto (sourceConfig : Option BmlNode) (config : BmlNode) (themes : ThemeMap) : BmlNode :=
  match mergeThemeTabOrder sourceConfig config themes with
  | .ok (_, merged) => merged
  | .error _ => config

/-- Both themes are put in at the end, and the second merge puts the one with the borrowed slot behind the other. -/
theorem mergeThemeTabOrder_false :
    ¬∃ registered merged, mergeThemeTabOrder none (plainSelector ["forest"]) fengshenAndMine = .ok (registered, merged) ∧
      MergeLaw none (plainSelector ["forest"]) fengshenAndMine merged := by
  rintro ⟨registered, merged, hmerge, hlaw⟩
  have hmerged : mergedInto none (plainSelector ["forest"]) fengshenAndMine = merged := by rw [mergedInto, hmerge]
  have hagain : mergedInto none merged fengshenAndMine = merged := by rw [mergedInto, hlaw.again]
  rw [← hmerged] at hagain
  have hids := congrArg tabIds hagain
  revert hids
  decide +kernel

end Assets

end P5136
