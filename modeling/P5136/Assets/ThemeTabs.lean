import P5136.Assets.Names
import P5136.Core.Bml
import P5136.Lib.FirstMatch

/-!
# The theme tabs of a selector

A selector lists its themes as the tabs of one node. Themes that tracks are imported for get a tab where the source has theirs,
by the tabs next to it there. A theme without a native slot borrows one: its tab has the number of the slot, and it is taken out
and put in again whenever the tabs are merged.
-/

namespace P5136

namespace Assets

structure ThemeSlotAlias where
  nativeCode : String
  nativeId : Nat
  stringKey : String
  icon : String
  contentKey : String
deriving DecidableEq

def themeSlotAlias (theme : String) : Option ThemeSlotAlias :=
  if eqIgnoreAsciiCase theme "fengshen" then some ⟨"xyy", 17, "themeFengshen", "fengshen", "themeXyy"⟩ else none

def selectorRegistrationId (theme : String) : String :=
  match themeSlotAlias theme with
  | none => theme
  | some slot => toString slot.nativeId

/-- The themes of a merge, under their folded names and in the order of those. -/
structure ThemeMap where
  entries : List (String × String)
  sorted : (entries.map (·.1)).Pairwise (· < ·)
  folded : ∀ entry ∈ entries, entry.1 = foldPath entry.2

/-! ## Attributes and tabs -/

/-- `attribute`. -/
def attributeOf (node : BmlNode) (name : String) : Option String :=
  (node.attributes.find? fun candidate => eqIgnoreAsciiCase candidate.1 name).map (·.2)

def setAttribute (node : BmlNode) (name value : String) : BmlNode :=
  { node with
    attributes := FirstMatch.upsert (fun candidate => eqIgnoreAsciiCase candidate.1 name) (name, value)
      (fun candidate => (candidate.1, value)) node.attributes }

/-- The node that has the tabs of a selector. -/
def isThemeTabOrder (node : BmlNode) : Bool := eqIgnoreAsciiCase node.name "themeTabOrder"

/-- The tabs of a selector. -/
def themeTabs (config : BmlNode) : List BmlNode := ((config.children.find? isThemeTabOrder).map (·.children)).getD []

/-- A tab has an identifier that the test accepts. -/
def idIs (accept : String → Bool) (node : BmlNode) : Bool := (attributeOf node "id").any accept

def selectorHasTheme (root : BmlNode) (theme : String) : Bool :=
  match root.children.find? isThemeTabOrder with
  | none => false
  | some order => order.children.any (idIs fun id => eqIgnoreAsciiCase id (selectorRegistrationId theme))

/-! ## Merging one theme -/

/-- The tabs that the theme with a borrowed slot leaves: not its own, not the one of the slot, and not the one with its number. -/
def retainTabs (theme : String) (slot : ThemeSlotAlias) (tabs : List BmlNode) : List BmlNode :=
  tabs.filter fun node => match attributeOf node "id" with
    | none => true
    | some id => !eqIgnoreAsciiCase id theme && !eqIgnoreAsciiCase id slot.nativeCode && id != selectorRegistrationId theme

/-- Where the source has a theme. -/
def sourceIndexOf (sourceOrder : List BmlNode) (foldedTheme : String) : Option Nat :=
  sourceOrder.findIdx? (idIs fun id => foldPath id == foldedTheme)

/-- The tab of a theme: the one of the source, or a new one. -/
def newTab (sourceOrder : List BmlNode) (foldedTheme theme : String) : BmlNode :=
  let row := ((sourceIndexOf sourceOrder foldedTheme).bind (sourceOrder[·]?)).getD ⟨"theme", "", [("id", theme)], []⟩
  let row := setAttribute { row with name := "theme" } "id" (selectorRegistrationId theme)
  match themeSlotAlias theme with
  | none => row
  | some slot => setAttribute (setAttribute row "stringKey" slot.stringKey) "icon" slot.icon

/-- Where the tabs have a tab with the identifier of one of the source. -/
def anchorOf (tabs : List BmlNode) (candidate : BmlNode) : Option Nat :=
  (attributeOf candidate "id").bind fun id => tabs.findIdx? (idIs fun target => foldPath target == foldPath id)

/-- Where a tab is put in: before the first one behind it in the source that is there, else behind the last one before it in the
source that is there, else at the end. -/
def insertionIndex (sourceOrder tabs : List BmlNode) (foldedTheme : String) : Nat :=
  match sourceIndexOf sourceOrder foldedTheme with
  | none => tabs.length
  | some index =>
    (((sourceOrder.drop (index + 1)).findSome? (anchorOf tabs)).or
      ((sourceOrder.take index).reverse.findSome? fun candidate => (anchorOf tabs candidate).map (· + 1))).getD tabs.length

/-- A tab is put in for a theme. -/
def insertTab (sourceOrder tabs : List BmlNode) (foldedTheme theme : String) : List BmlNode :=
  tabs.insertIdx (insertionIndex sourceOrder tabs foldedTheme) (newTab sourceOrder foldedTheme theme)

/-- One turn of the loop of `merge_theme_tab_order`. -/
def mergeTheme (sourceOrder tabs : List BmlNode) (entry : String × String) : List BmlNode :=
  match themeSlotAlias entry.2 with
  | some slot => insertTab sourceOrder (retainTabs entry.2 slot tabs) entry.1 entry.2
  | none =>
    if tabs.any (idIs fun id => eqIgnoreAsciiCase id (selectorRegistrationId entry.2)) then tabs
    else insertTab sourceOrder tabs entry.1 entry.2

/-! ## Merging -/

/-- Why the tabs of a selector cannot be merged. -/
inductive ThemeTabError where
  | notConfig (name : String)
  | noThemeTabOrder
deriving DecidableEq

/-- The tabs of the source, none when there is no source. -/
def sourceTabs (sourceConfig : Option BmlNode) : List BmlNode := (sourceConfig.map themeTabs).getD []

/-- `merge_theme_tab_order`: the registered themes, and the config. -/
def mergeThemeTabOrder (sourceConfig : Option BmlNode) (targetConfig : BmlNode) (themes : ThemeMap) :
    Except ThemeTabError (List String × BmlNode) := do
  Checks.ensure (eqIgnoreAsciiCase targetConfig.name "config") (.notConfig targetConfig.name)
  let sourceOrder := sourceTabs sourceConfig
  match targetConfig.children.dropWhile (!isThemeTabOrder ·) with
  | [] => .error .noThemeTabOrder
  | order :: after =>
    let tabs := themes.entries.foldl (mergeTheme sourceOrder) order.children
    pure (themes.entries.map (·.1),
      { targetConfig with
        children := targetConfig.children.takeWhile (!isThemeTabOrder ·) ++ { order with children := tabs } :: after })

end Assets

end P5136
