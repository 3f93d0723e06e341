import P5136.Lib.DecimalDigits
import P5136.Lib.FirstMatch
import P5136.Rho5.Aaa

/-!
# The mounts of the pack-folder index

The RHO mounts that an index declares, and the change that inserts one of them or replaces one (`rho_mounts` and
`upsert_rho_folder` of `aaa.rs`). A change replaces the first folder that has the file name or the name of the new one, so another
folder with the file name can stay behind it.
-/

namespace P5136

open Checks List FirstMatch

/-- The errors of `AaaError` about mounts. -/
inductive AaaMountError where
  | invalidRoot (name : String)
  | missingAttribute (node name : String)
  | invalidAttribute (node name value : String)
deriving DecidableEq

structure AaaRhoFolder where
  name : String
  fileName : String
  key : UInt32
  dataHash : UInt32
  mediaSize : UInt64
deriving DecidableEq

structure AaaRhoMount where
  packPath : List String
  folder : AaaRhoFolder
deriving DecidableEq

namespace AaaNode

def new (name : String) : AaaNode := ⟨name, "", [], []⟩

/-- `attribute`. -/
def attributeValue (self : AaaNode) (name : String) : Option String :=
  (self.attributes.find? fun candidate => candidate.1 == name).map (·.2)

/-- `set_attribute`: the first attribute of the name is changed, or one is appended. -/
def setAttribute (self : AaaNode) (name value : String) : AaaNode :=
  { self with
    attributes := upsert (fun candidate => candidate.1 == name) (name, value) (fun candidate => (candidate.1, value))
      self.attributes }

end AaaNode

namespace AaaMounts

def requiredAttribute (node : AaaNode) (name : String) : Except AaaMountError String :=
  orElse (node.attributeValue name) (.missingAttribute node.name name)

/-- `parse_attribute`, of the unsigned numbers below a limit. -/
def parseAttribute (limit : Nat) (node : AaaNode) (name : String) : Except AaaMountError Nat := do
  let value ← requiredAttribute node name
  orElse (DecimalDigits.parseUnsigned limit value.toList) (.invalidAttribute node.name name value)

/-- The folder that a `RhoFolder` node describes. -/
def readFolder (node : AaaNode) : Except AaaMountError AaaRhoFolder := do
  let name ← requiredAttribute node "name"
  let fileName ← requiredAttribute node "fileName"
  let key ← parseAttribute (2 ^ 32) node "key"
  let dataHash ← parseAttribute (2 ^ 32) node "dataHash"
  let mediaSize ← parseAttribute (2 ^ 64) node "mediaSize"
  pure ⟨name, fileName, UInt32.ofNat key, UInt32.ofNat dataHash, UInt64.ofNat mediaSize⟩

mutual

/-- One turn of the loop of `collect_rho_mounts`: what a child adds. -/
def collectChild : AaaNode → List String → Except AaaMountError (List AaaRhoMount)
  | ⟨name, text, attributes, children⟩, packPath =>
    if name = "PackFolder" then do
      let component ← requiredAttribute ⟨name, text, attributes, children⟩ "name"
      collectRhoMounts children (packPath ++ [component])
    else if name = "RhoFolder" then do
      let folder ← readFolder ⟨name, text, attributes, children⟩
      pure [⟨packPath, folder⟩]
    else pure []

/-- `collect_rho_mounts`, of the children of a node. -/
def collectRhoMounts : List AaaNode → List String → Except AaaMountError (List AaaRhoMount)
  | [], _ => pure []
  | child :: children, packPath => do
    let first ← collectChild child packPath
    let rest ← collectRhoMounts children packPath
    pure (first ++ rest)

end

/-- The child is a pack folder of the name. -/
def isPackFolder (component : String) (child : AaaNode) : Bool :=
  child.name == "PackFolder" && child.attributeValue "name" == some component

/-- The child is a RHO folder with the file name, or the name that is not empty. -/
def isExisting (rho : AaaRhoFolder) (child : AaaNode) : Bool :=
  child.name == "RhoFolder" && (child.attributeValue "fileName" == some rho.fileName ||
    (!rho.name.isEmpty && child.attributeValue "name" == some rho.name))

/-- A node with the attributes of a folder. -/
def describe (rho : AaaRhoFolder) (node : AaaNode) : AaaNode :=
  ((((node.setAttribute "name" rho.name).setAttribute "fileName" rho.fileName).setAttribute "key"
    rho.key.toNat.repr).setAttribute "dataHash" rho.dataHash.toNat.repr).setAttribute "mediaSize" rho.mediaSize.toNat.repr

/-- `upsert_rho_folder` below the root: the first pack folder of each component, or a new one, and there the first RHO folder that
matches, or a new one. -/
def upsertAt (rho : AaaRhoFolder) : List String → AaaNode → AaaNode
  | [], node =>
    { node with children := upsert (isExisting rho) (.new "RhoFolder") (describe rho) node.children }
  | component :: packPath, node =>
    { node with
      children := upsert (isPackFolder component) ((AaaNode.new "PackFolder").setAttribute "name" component)
        (upsertAt rho packPath) node.children }

end AaaMounts

namespace AaaDocument

open AaaMounts

def rhoMounts (self : AaaDocument) : Except AaaMountError (List AaaRhoMount) := do
  ensure (self.root.name = "PackFolder") (.invalidRoot self.root.name)
  collectRhoMounts self.root.children []

def upsertRhoFolder (self : AaaDocument) (packPath : List String) (rho : AaaRhoFolder) : Except AaaMountError AaaDocument := do
  ensure (self.root.name = "PackFolder") (.invalidRoot self.root.name)
  pure ⟨upsertAt rho packPath self.root⟩

end AaaDocument

/-! ## Attributes -/

namespace AaaNode

/-- An attribute that was set is read back, and the others are read as before. -/
theorem attributeValue_setAttribute (node : AaaNode) (name other value : String) :
    (node.setAttribute name value).attributeValue other = if other = name then some value else node.attributeValue other := by
  unfold attributeValue setAttribute
  by_cases hname : other = name
  · subst hname
    rw [if_pos rfl, find?_upsert (by simp) (by simp), Option.map_some]
  · rw [if_neg hname]
    refine congrArg _ (find?_upsert_of_disjoint ?_ ?_ ?_ _)
    · simpa using Ne.symm hname
    · intro candidate hcandidate
      simp only [beq_iff_eq] at hcandidate
      simpa [hcandidate] using Ne.symm hname
    · intro candidate hcandidate
      simp only [beq_iff_eq] at hcandidate
      simpa [hcandidate] using Ne.symm hname

/-- An attribute that has the value already is set without a change. -/
theorem setAttribute_of_eq {node : AaaNode} {name value : String} (h : node.attributeValue name = some value) :
    node.setAttribute name value = node := by
  unfold attributeValue at h
  rw [Option.map_eq_some_iff] at h
  obtain ⟨candidate, hfind, rfl⟩ := h
  have hsame : upsert (fun candidate => candidate.1 == name) (name, candidate.2)
      (fun other => (other.1, candidate.2)) node.attributes = node.attributes := upsert_of_fixed hfind rfl
  cases node
  exact congrArg (fun attributes => AaaNode.mk _ _ attributes _) hsame

end AaaNode

namespace AaaMounts

@[simp] theorem name_describe (rho : AaaRhoFolder) (node : AaaNode) : (describe rho node).name = node.name := rfl

theorem attributeValue_describe (rho : AaaRhoFolder) (node : AaaNode) (other : String) :
    (describe rho node).attributeValue other =
      if other = "mediaSize" then some rho.mediaSize.toNat.repr
      else if other = "dataHash" then some rho.dataHash.toNat.repr
      else if other = "key" then some rho.key.toNat.repr
      else if other = "fileName" then some rho.fileName
      else if other = "name" then some rho.name
      else node.attributeValue other := by
  simp only [describe, AaaNode.attributeValue_setAttribute]

/-- An attribute is there. -/
theorem requiredAttribute_eq_ok {node : AaaNode} {name value : String} :
    requiredAttribute node name = .ok value ↔ node.attributeValue name = some value := orElse_eq_ok

/-- A printed number is read back. -/
theorem parseAttribute_repr {limit n : Nat} {node : AaaNode} {name : String} (h : node.attributeValue name = some n.repr)
    (hn : n < limit) : parseAttribute limit node name = .ok n :=
  bind_eq_ok.2 ⟨_, requiredAttribute_eq_ok.2 h, orElse_eq_ok.2 (DecimalDigits.parseUnsigned_repr hn)⟩

/-- A node that describes a folder is read as that folder. -/
theorem readFolder_describe (rho : AaaRhoFolder) (node : AaaNode) : readFolder (describe rho node) = .ok rho := by
  have hvalue := attributeValue_describe rho node
  generalize describe rho node = described at hvalue
  have hname := requiredAttribute_eq_ok.2 (hvalue "name")
  have hfile := requiredAttribute_eq_ok.2 (hvalue "fileName")
  have hkey := parseAttribute_repr (hvalue "key") rho.key.toNat_lt
  have hhash := parseAttribute_repr (hvalue "dataHash") rho.dataHash.toNat_lt
  have hsize := parseAttribute_repr (hvalue "mediaSize") rho.mediaSize.toNat_lt
  rw [readFolder, hname, hfile, hkey, hhash, hsize]
  simp [bind, Except.bind, pure, Except.pure]

/-- A node that describes a folder describes it already. -/
theorem describe_describe (rho : AaaRhoFolder) (node : AaaNode) : describe rho (describe rho node) = describe rho node := by
  have hvalue := attributeValue_describe rho node
  generalize describe rho node = described at hvalue
  rw [describe, AaaNode.setAttribute_of_eq (hvalue "name"), AaaNode.setAttribute_of_eq (hvalue "fileName"),
    AaaNode.setAttribute_of_eq (hvalue "key"), AaaNode.setAttribute_of_eq (hvalue "dataHash"),
    AaaNode.setAttribute_of_eq (hvalue "mediaSize")]

/-! ## Where a change lands -/

/-- The node that a change replaces: the first RHO folder that matches in the pack folder of the path. -/
def replaced (rho : AaaRhoFolder) : List String → AaaNode → Option AaaNode
  | [], node => node.children.find? (isExisting rho)
  | component :: packPath, node => (node.children.find? (isPackFolder component)).bind (replaced rho packPath)

/-- A list of mounts after a change: with the mount of the replaced node exchanged for the new one, or with the new one added. -/
inductive Changed (mount : AaaRhoMount) : Option AaaNode → List AaaRhoMount → List AaaRhoMount → Prop
  | inserted (before after : List AaaRhoMount) : Changed mount none (before ++ after) (before ++ mount :: after)
  | exchanged {child : AaaNode} {old : AaaRhoMount} (before after : List AaaRhoMount)
      (hexisting : isExisting mount.folder child = true) (hread : readFolder child = .ok old.folder)
      (hpath : old.packPath = mount.packPath) :
      Changed mount (some child) (before ++ old :: after) (before ++ mount :: after)

/-- A change between other mounts. -/
theorem Changed.frame {mount : AaaRhoMount} {child : Option AaaNode} {old new : List AaaRhoMount}
    (h : Changed mount child old new) (front back : List AaaRhoMount) :
    Changed mount child (front ++ (old ++ back)) (front ++ (new ++ back)) := by
  cases h with
  | inserted before after =>
    have hinserted : Changed mount none _ _ := Changed.inserted (front ++ before) (after ++ back)
    simpa only [append_assoc, cons_append] using hinserted
  | exchanged before after hexisting hread hpath =>
    have hexchanged := Changed.exchanged (front ++ before) (after ++ back) hexisting hread hpath
    simpa only [append_assoc, cons_append] using hexchanged

/-- The mounts of children are those of the first and of the others. -/
theorem collectRhoMounts_cons {child : AaaNode} {children : List AaaNode} {packPath : List String} {mounts : List AaaRhoMount} :
    collectRhoMounts (child :: children) packPath = .ok mounts ↔ ∃ first rest, collectChild child packPath = .ok first ∧
      collectRhoMounts children packPath = .ok rest ∧ mounts = first ++ rest := by
  rw [collectRhoMounts, bind_eq_ok]
  refine exists_congr fun first => ?_
  rw [bind_eq_ok]
  constructor
  · rintro ⟨hfirst, rest, hrest, hmounts⟩
    exact ⟨rest, hfirst, hrest, (Except.ok.inj hmounts).symm⟩
  · rintro ⟨rest, hfirst, hrest, rfl⟩
    exact ⟨hfirst, rest, hrest, rfl⟩

theorem collectRhoMounts_append {front back : List AaaNode} {packPath : List String} {mounts : List AaaRhoMount} :
    collectRhoMounts (front ++ back) packPath = .ok mounts ↔ ∃ first rest, collectRhoMounts front packPath = .ok first ∧
      collectRhoMounts back packPath = .ok rest ∧ mounts = first ++ rest := by
  induction front generalizing mounts with
  | nil =>
    constructor
    · intro h
      exact ⟨[], mounts, rfl, h, rfl⟩
    · rintro ⟨first, rest, hfirst, hrest, rfl⟩
      obtain rfl : [] = first := Except.ok.inj hfirst
      exact hrest
  | cons child front ih =>
    rw [cons_append, collectRhoMounts_cons]
    constructor
    · rintro ⟨first, rest, hfirst, hrest, rfl⟩
      obtain ⟨others, last, hothers, hlast, rfl⟩ := ih.1 hrest
      exact ⟨first ++ others, last, collectRhoMounts_cons.2 ⟨first, others, hfirst, hothers, rfl⟩, hlast,
        (append_assoc ..).symm⟩
    · rintro ⟨front', last, hfront, hlast, rfl⟩
      obtain ⟨first, others, hfirst, hothers, rfl⟩ := collectRhoMounts_cons.1 hfront
      exact ⟨first, others ++ last, hfirst, ih.2 ⟨others, last, hothers, hlast, rfl⟩, append_assoc ..⟩

/-- A pack folder adds the mounts below its name. -/
theorem collectChild_packFolder {child : AaaNode} {component : String} {packPath : List String}
    (h : isPackFolder component child = true) :
    collectChild child packPath = collectRhoMounts child.children (packPath ++ [component]) := by
  simp only [isPackFolder, Bool.and_eq_true, beq_iff_eq] at h
  obtain ⟨hname, hcomponent⟩ := h
  cases child with
  | mk name text attributes children =>
    change name = "PackFolder" at hname
    rw [collectChild, if_pos hname, requiredAttribute_eq_ok.2 hcomponent]
    rfl

/-- A RHO folder adds the mount of the folder it describes. -/
theorem collectChild_rhoFolder {child : AaaNode} {packPath : List String} (h : child.name = "RhoFolder") :
    collectChild child packPath = (readFolder child >>= fun folder => pure [⟨packPath, folder⟩]) := by
  cases child with
  | mk name text attributes children =>
    change name = "RhoFolder" at h
    rw [collectChild, if_neg (by rw [h]; decide), if_pos h]

/-- A change of one child changes the mounts of the children as it changes those of the child. -/
theorem Changed.children {mount : AaaRhoMount} {replacedNode : Option AaaNode} {before after : List AaaNode}
    {child child' : AaaNode} {packPath : List String} {mounts : List AaaRhoMount}
    (hmounts : collectRhoMounts (before ++ child :: after) packPath = .ok mounts)
    (hchild : ∀ old, collectChild child packPath = .ok old →
      ∃ new, collectChild child' packPath = .ok new ∧ Changed mount replacedNode old new) :
    ∃ mounts', collectRhoMounts (before ++ child' :: after) packPath = .ok mounts' ∧
      Changed mount replacedNode mounts mounts' := by
  obtain ⟨front, rest, hfront, hrest, rfl⟩ := collectRhoMounts_append.1 hmounts
  obtain ⟨old, back, hold, hback, rfl⟩ := collectRhoMounts_cons.1 hrest
  obtain ⟨new, hnew, hchanged⟩ := hchild old hold
  exact ⟨front ++ (new ++ back), collectRhoMounts_append.2 ⟨front, new ++ back, hfront,
    collectRhoMounts_cons.2 ⟨new, back, hnew, hback, rfl⟩, rfl⟩, hchanged.frame front back⟩

/-- A new child adds its mounts behind the others. -/
theorem Changed.appended {mount : AaaRhoMount} {children : List AaaNode} {child : AaaNode} {packPath : List String}
    {mounts : List AaaRhoMount} (hmounts : collectRhoMounts children packPath = .ok mounts)
    (hchild : collectChild child packPath = .ok [mount]) :
    ∃ mounts', collectRhoMounts (children ++ [child]) packPath = .ok mounts' ∧ Changed mount none mounts mounts' := by
  refine ⟨mounts ++ [mount], collectRhoMounts_append.2 ⟨mounts, [mount], hmounts,
    collectRhoMounts_cons.2 ⟨[mount], [], hchild, rfl, rfl⟩, rfl⟩, ?_⟩
  have hinserted : Changed mount none _ _ := Changed.inserted mounts []
  rwa [append_nil] at hinserted

/-- In a folder without children a change replaces nothing. -/
theorem replaced_of_children_nil {rho : AaaRhoFolder} {packPath : List String} {node : AaaNode} (h : node.children = []) :
    replaced rho packPath node = none := by
  cases packPath <;> simp [replaced, h]

@[simp] theorem isPackFolder_upsertAt (component : String) (rho : AaaRhoFolder) (packPath : List String) (node : AaaNode) :
    isPackFolder component (upsertAt rho packPath node) = isPackFolder component node := by
  cases packPath <;> rfl

theorem isPackFolder_new (component : String) :
    isPackFolder component ((AaaNode.new "PackFolder").setAttribute "name" component) = true := by
  have hvalue := AaaNode.attributeValue_setAttribute (.new "PackFolder") "name" "name" component
  rw [if_pos rfl] at hvalue
  simp only [isPackFolder, hvalue, beq_self_eq_true, Bool.and_true]
  rfl

theorem isExisting_describe {rho : AaaRhoFolder} {node : AaaNode} (h : node.name = "RhoFolder") :
    isExisting rho (describe rho node) = true := by
  simp [isExisting, attributeValue_describe, h]

/-- A change of an index with readable mounts leaves them readable, and changes the mounts at one place. -/
theorem upsertAt_mounts (rho : AaaRhoFolder) (path : List String) {node : AaaNode} {packPath : List String}
    {mounts : List AaaRhoMount} (h : collectRhoMounts node.children packPath = .ok mounts) :
    ∃ mounts', collectRhoMounts (upsertAt rho path node).children packPath = .ok mounts' ∧
      Changed ⟨packPath ++ path, rho⟩ (replaced rho path node) mounts mounts' := by
  induction path generalizing node packPath mounts with
  | nil =>
    rw [append_nil]
    rcases (upsert_cases node.children : _ ∨ _ ∧ _ ∧ upsert (isExisting rho) (.new "RhoFolder")
      (describe rho) node.children = _) with ⟨before, child, after, hchildren, -, hexisting, hfind, heq⟩ | ⟨-, hfind, heq⟩
    · have hname : child.name = "RhoFolder" := by
        simp only [isExisting, Bool.and_eq_true, beq_iff_eq] at hexisting
        exact hexisting.1
      simp only [upsertAt, replaced, hfind, heq]
      rw [hchildren] at h
      refine Changed.children h fun old hold => ?_
      rw [collectChild_rhoFolder hname] at hold
      obtain ⟨folder, hfolder, hold⟩ := bind_eq_ok.1 hold
      obtain rfl := Except.ok.inj hold
      refine ⟨[⟨packPath, rho⟩], ?_, Changed.exchanged [] [] hexisting hfolder rfl⟩
      rw [collectChild_rhoFolder (show (describe rho child).name = "RhoFolder" from hname), readFolder_describe]
      rfl
    · simp only [upsertAt, replaced, hfind, heq]
      refine Changed.appended h ?_
      rw [collectChild_rhoFolder rfl, readFolder_describe]
      rfl
  | cons component path ih =>
    have hsplit : packPath ++ component :: path = packPath ++ [component] ++ path := by simp
    rw [hsplit]
    rcases (upsert_cases node.children : _ ∨ _ ∧ _ ∧ upsert (isPackFolder component)
      ((AaaNode.new "PackFolder").setAttribute "name" component) (upsertAt rho path) node.children = _) with
      ⟨before, child, after, hchildren, -, hpack, hfind, heq⟩ | ⟨-, hfind, heq⟩
    · simp only [upsertAt, replaced, hfind, heq, Option.bind_some]
      rw [hchildren] at h
      refine Changed.children h fun old hold => ?_
      rw [collectChild_packFolder hpack] at hold
      obtain ⟨new, hnew, hchanged⟩ := ih hold
      refine ⟨new, ?_, hchanged⟩
      rw [collectChild_packFolder (by rw [isPackFolder_upsertAt, hpack])]
      exact hnew
    · simp only [upsertAt, replaced, hfind, heq, Option.bind_none]
      refine Changed.appended h ?_
      have hempty : collectRhoMounts ((AaaNode.new "PackFolder").setAttribute "name" component).children
          (packPath ++ [component]) = .ok [] := rfl
      obtain ⟨new, hnew, hchanged⟩ := ih hempty
      rw [replaced_of_children_nil rfl] at hchanged
      have hsingle : new = [⟨packPath ++ [component] ++ path, rho⟩] := by
        generalize hold : ([] : List AaaRhoMount) = old at hchanged
        cases hchanged with
        | inserted before after =>
          obtain ⟨rfl, rfl⟩ := append_eq_nil_iff.1 hold.symm
          rfl
      rw [collectChild_packFolder (by rw [isPackFolder_upsertAt, isPackFolder_new]), hnew, hsingle]

/-- The same change twice is the change once. -/
theorem upsertAt_upsertAt (rho : AaaRhoFolder) (path : List String) (node : AaaNode) :
    upsertAt rho path (upsertAt rho path node) = upsertAt rho path node := by
  induction path generalizing node with
  | nil =>
    refine congrArg (fun children => AaaNode.mk _ _ _ children) (upsert_upsert ?_ ?_ ?_ _)
    · exact isExisting_describe rfl
    · intro child hchild
      simp only [isExisting, Bool.and_eq_true, beq_iff_eq] at hchild
      exact isExisting_describe hchild.1
    · exact fun child _ => describe_describe rho child
  | cons component path ih =>
    refine congrArg (fun children => AaaNode.mk _ _ _ children) (upsert_upsert ?_ ?_ ?_ _)
    · rw [isPackFolder_upsertAt, isPackFolder_new]
    · intro child hchild
      rw [isPackFolder_upsertAt, hchild]
    · exact fun child _ => ih child

/-! ## What a change keeps -/

/-- The file names are pairwise distinct inside each pack folder. -/
def Distinct (mounts : List AaaRhoMount) : Prop :=
  (mounts.map fun mount => (mount.packPath, mount.folder.fileName)).Nodup

/-- The mount is under another pack path, or shares neither the file name nor the name that is not empty. -/
def unrelated (path : List String) (rho : AaaRhoFolder) (mount : AaaRhoMount) : Bool :=
  mount.packPath != path || (mount.folder.fileName != rho.fileName && (rho.name.isEmpty || mount.folder.name != rho.name))

/-- The folder that a node describes has its file name and its name. -/
theorem readFolder_attributes {node : AaaNode} {folder : AaaRhoFolder} (h : readFolder node = .ok folder) :
    node.attributeValue "name" = some folder.name ∧ node.attributeValue "fileName" = some folder.fileName := by
  obtain ⟨name, hname, h⟩ := bind_eq_ok.1 h
  obtain ⟨fileName, hfile, h⟩ := bind_eq_ok.1 h
  obtain ⟨key, -, h⟩ := bind_eq_ok.1 h
  obtain ⟨dataHash, -, h⟩ := bind_eq_ok.1 h
  obtain ⟨mediaSize, -, h⟩ := bind_eq_ok.1 h
  obtain rfl := Except.ok.inj h
  exact ⟨requiredAttribute_eq_ok.1 hname, requiredAttribute_eq_ok.1 hfile⟩

section

variable {mount : AaaRhoMount} {child : Option AaaNode} {old new : List AaaRhoMount}

/-- The new mount is there. -/
theorem Changed.mem (h : Changed mount child old new) : mount ∈ new := by
  cases h <;> simp

/-- The unrelated mounts are there, in their order. -/
theorem Changed.sublist (h : Changed mount child old new) :
    (old.filter (unrelated mount.packPath mount.folder)).Sublist new := by
  cases h with
  | inserted before after =>
    exact filter_sublist.trans ((Sublist.refl before).append (sublist_cons_self ..))
  | @exchanged node exchanged before after hexisting hread hpath =>
    obtain ⟨hname, hfile⟩ := readFolder_attributes hread
    have hrelated : unrelated mount.packPath mount.folder exchanged = false := by
      rw [isExisting, hname, hfile] at hexisting
      simp only [Bool.and_eq_true, Bool.or_eq_true, beq_iff_eq, Option.some.injEq, Bool.not_eq_true'] at hexisting
      rcases hexisting.2 with heq | ⟨hempty, heq⟩
      · simp [unrelated, hpath, heq]
      · simp [unrelated, hpath, heq, hempty]
    rw [filter_append, filter_cons_of_neg (by simp [hrelated])]
    exact filter_sublist.append (filter_sublist.trans (sublist_cons_self ..))

/-- The mounts stay distinct exactly when a mount with the path and the file name of the new one is the exchanged one. -/
theorem Changed.distinct_iff (h : Changed mount child old new) (hold : Distinct old) :
    Distinct new ↔ ∀ other ∈ old, other.packPath = mount.packPath → other.folder.fileName = mount.folder.fileName →
      ∃ node, child = some node ∧ node.attributeValue "fileName" = some mount.folder.fileName := by
  -- the others are distinct, and the new mount is distinct from them when none of them has its path and file name
  have hfresh : ∀ before after : List AaaRhoMount, Distinct (before ++ after) →
      (Distinct (before ++ mount :: after) ↔ ∀ other ∈ before ++ after, other.packPath = mount.packPath →
        other.folder.fileName ≠ mount.folder.fileName) := by
    intro before after hothers
    unfold Distinct at hothers ⊢
    rw [(perm_middle.map _).nodup_iff, map_cons, nodup_cons, and_iff_left hothers]
    simp only [mem_map, Prod.mk.injEq, not_exists, not_and]
  cases h with
  | inserted before after =>
    rw [hfresh before after hold]
    refine forall_congr' fun other => forall_congr' fun _ => forall_congr' fun _ => ?_
    simp [Ne]
  | @exchanged node exchanged before after hexisting hread hpath =>
    obtain ⟨-, hfile⟩ := readFolder_attributes hread
    have hmiddle : Perm (before ++ exchanged :: after) (exchanged :: (before ++ after)) := perm_middle
    have hperm := hmiddle.map fun mount : AaaRhoMount => (mount.packPath, mount.folder.fileName)
    unfold Distinct at hold
    rw [hperm.nodup_iff, map_cons, nodup_cons] at hold
    obtain ⟨hother, hothers⟩ := hold
    rw [hfresh before after hothers]
    by_cases hsame : exchanged.folder.fileName = mount.folder.fileName
    · refine iff_of_true (fun other hmem hotherpath hotherfile => hother (mem_map.2 ⟨other, hmem, ?_⟩))
        (fun other _ _ _ => ⟨node, rfl, hfile.trans (congrArg some hsame)⟩)
      rw [hotherpath, hpath, hotherfile, hsame]
    · have hnot : ¬∃ other, some node = some other ∧ other.attributeValue "fileName" = some mount.folder.fileName := by
        rintro ⟨other, heq, hvalue⟩
        obtain rfl := Option.some.inj heq
        exact hsame (Option.some.inj (hfile.symm.trans hvalue))
      constructor
      · intro hnone other hmem hotherpath hotherfile
        rcases mem_append.1 hmem with hbefore | hcons
        · exact absurd hotherfile (hnone other (mem_append_left _ hbefore) hotherpath)
        · rcases mem_cons.1 hcons with rfl | hafter
          · exact absurd hotherfile hsame
          · exact absurd hotherfile (hnone other (mem_append_right _ hafter) hotherpath)
      · intro hall other hmem hotherpath hotherfile
        refine hnot (hall other ?_ hotherpath hotherfile)
        rcases mem_append.1 hmem with hbefore | hafter
        · exact mem_append_left _ hbefore
        · exact mem_append_right _ (mem_cons_of_mem _ hafter)

end

/-- A change of an index leaves its mounts readable and distinct, with the new mount among them and the unrelated ones in their
order, and the same change again changes nothing. -/
def Upserts (document : AaaDocument) (path : List String) (rho : AaaRhoFolder) (mounts : List AaaRhoMount) : Prop :=
  ∃ document' mounts', document.upsertRhoFolder path rho = .ok document' ∧ document'.rhoMounts = .ok mounts' ∧
    ⟨path, rho⟩ ∈ mounts' ∧ Distinct mounts' ∧ (mounts.filter (unrelated path rho)).Sublist mounts' ∧
    document'.upsertRhoFolder path rho = .ok document'

/-- It does so exactly when a mount under the path with the new file name is the one that is replaced. -/
theorem upserts_iff {document : AaaDocument} {mounts : List AaaRhoMount} (hmounts : document.rhoMounts = .ok mounts)
    (hdistinct : Distinct mounts) (path : List String) (rho : AaaRhoFolder) :
    Upserts document path rho mounts ↔ ∀ mount ∈ mounts, mount.packPath = path → mount.folder.fileName = rho.fileName →
      ∃ node, replaced rho path document.root = some node ∧ node.attributeValue "fileName" = some rho.fileName := by
  obtain ⟨_, hroot, hcollect⟩ := bind_eq_ok.1 hmounts
  rw [ensure_eq_ok] at hroot
  have hname : ∀ node, (upsertAt rho path node).name = node.name := by
    intro node
    cases path <;> rfl
  have hupsert : ∀ document : AaaDocument, document.root.name = "PackFolder" →
      document.upsertRhoFolder path rho = .ok ⟨upsertAt rho path document.root⟩ :=
    fun document hroot => bind_eq_ok.2 ⟨(), ensure_eq_ok.2 hroot, rfl⟩
  obtain ⟨mounts', hmounts', hchanged⟩ := upsertAt_mounts rho path hcollect
  rw [nil_append] at hchanged
  have hread : AaaDocument.rhoMounts ⟨upsertAt rho path document.root⟩ = .ok mounts' :=
    bind_eq_ok.2 ⟨(), ensure_eq_ok.2 ((hname _).trans hroot), hmounts'⟩
  rw [← hchanged.distinct_iff hdistinct]
  constructor
  · rintro ⟨document', mounts'', hdocument', hmounts'', -, hkeeps, -, -⟩
    rw [hupsert document hroot, Except.ok.injEq] at hdocument'
    subst hdocument'
    rw [hread, Except.ok.injEq] at hmounts''
    exact hmounts'' ▸ hkeeps
  · intro hkeeps
    refine ⟨_, mounts', hupsert document hroot, hread, hchanged.mem, hkeeps, hchanged.sublist, ?_⟩
    rw [hupsert _ ((hname _).trans hroot), upsertAt_upsertAt]

/-- A node of a RHO folder. -/
def sampleNode (rho : AaaRhoFolder) : AaaNode := describe rho (.new "RhoFolder")

/-- An index with the folder of one archive in front of another. -/
def sampleDocument : AaaDocument :=
  ⟨{ AaaNode.new "PackFolder" with children := [sampleNode ⟨"kart", "a.rho", 1, 2, 3⟩, sampleNode ⟨"xun", "b.rho", 4, 5, 6⟩] }⟩

/-- The archive of the second folder, imported again under its own name, takes its place. -/
theorem upserts_iff_sample : Upserts sampleDocument [] ⟨"xun", "b.rho", 7, 8, 9⟩
    [⟨[], ⟨"kart", "a.rho", 1, 2, 3⟩⟩, ⟨[], ⟨"xun", "b.rho", 4, 5, 6⟩⟩] := by
  refine (upserts_iff (by decide +kernel) (by unfold Distinct; decide +kernel) [] ⟨"xun", "b.rho", 7, 8, 9⟩).2 fun _ _ _ _ => ?_
  exact ⟨sampleNode ⟨"xun", "b.rho", 4, 5, 6⟩, rfl, by decide +kernel⟩

/-- Imported under the name of the first folder it takes the place of that one, and its archive is mounted twice. -/
theorem upserts_false : sampleDocument.rhoMounts = .ok [⟨[], ⟨"kart", "a.rho", 1, 2, 3⟩⟩, ⟨[], ⟨"xun", "b.rho", 4, 5, 6⟩⟩] ∧
    Distinct [⟨[], ⟨"kart", "a.rho", 1, 2, 3⟩⟩, ⟨[], ⟨"xun", "b.rho", 4, 5, 6⟩⟩] ∧
    ¬Upserts sampleDocument [] ⟨"kart", "b.rho", 7, 8, 9⟩
      [⟨[], ⟨"kart", "a.rho", 1, 2, 3⟩⟩, ⟨[], ⟨"xun", "b.rho", 4, 5, 6⟩⟩] := by
  refine ⟨by decide +kernel, by unfold Distinct; decide +kernel, ?_⟩
  rintro ⟨document', mounts', hdocument', hmounts', -, hkeeps, -⟩
  obtain rfl := Except.ok.inj hdocument'
  have hactual : AaaDocument.rhoMounts ⟨upsertAt ⟨"kart", "b.rho", 7, 8, 9⟩ [] sampleDocument.root⟩ =
      .ok [⟨[], ⟨"kart", "b.rho", 7, 8, 9⟩⟩, ⟨[], ⟨"xun", "b.rho", 4, 5, 6⟩⟩] := by decide +kernel
  rw [hactual, Except.ok.injEq] at hmounts'
  subst hmounts'
  revert hkeeps
  unfold Distinct
  decide +kernel

end AaaMounts
end P5136
