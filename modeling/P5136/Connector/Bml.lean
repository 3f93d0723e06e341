import P5136.Connector.Wire
import P5136.Core.Bml
import P5136.Nickname

/-!
# The trees of a PIN file

The optional trees of a PIN payload. All trees of one payload share a budget of nodes. The reader refuses a node that names an
attribute twice; the writer does not look, so it is undone only for the trees that the reader can return.
-/

namespace P5136.Connector

open WireWriter Act Format WireReader

/-- A tree of a PIN file. -/
abbrev BmlObject := BmlNode

mutual

/-- Trees are equal: their names, their values, their attributes in order, and their children. -/
def same : BmlObject → BmlObject → Bool
  | ⟨name, value, attributes, children⟩, ⟨name', value', attributes', children'⟩ =>
    name = name' && value = value' && attributes = attributes' && sameAll children children'

/-- Trees in a row are equal. -/
def sameAll : List BmlObject → List BmlObject → Bool
  | [], [] => true
  | child :: children, child' :: children' => same child child' && sameAll children children'
  | _, _ => false

end

mutual

theorem same_iff : ∀ (left right : BmlObject), same left right = true ↔ left = right
  | ⟨name, value, attributes, children⟩, ⟨name', value', attributes', children'⟩ => by
    simp [same, sameAll_iff children children', and_assoc]

theorem sameAll_iff : ∀ (left right : List BmlObject), sameAll left right = true ↔ left = right
  | [], [] => by simp [sameAll]
  | [], _ :: _ => by simp [sameAll]
  | _ :: _, [] => by simp [sameAll]
  | child :: children, child' :: children' => by
    simp [sameAll, same_iff child child', sameAll_iff children children']

end

instance : DecidableEq BmlObject := fun left right => decidable_of_iff _ (same_iff left right)

/-- `remove_direct_children_named`: what is left, and how many children were removed. -/
def removeDirectChildrenNamed (config : BmlObject) (name : String) : BmlObject × Nat :=
  let children := config.children.filter (fun child => !eqIgnoreAsciiCase child.name name)
  ({ config with children }, config.children.length - children.length)

/-- `BmlBudget::enter`: the nodes entered with this one. -/
def enter (limits : CodecLimits) (depth nodes : Nat) : Except PinCodecError Nat := do
  enforceLimit "BML depth" depth limits.maxBmlDepth
  let nodes ← Checks.orElse (Checked.add nodes 1) (.lengthOverflow "BML node count")
  enforceLimit "BML node count" nodes limits.maxBmlNodes
  pure nodes

/-- A node is entered on a level within the limit. -/
theorem depth_le_of_enter {limits : CodecLimits} {depth nodes nodes' : Nat} (h : enter limits depth nodes = .ok nodes') :
    depth ≤ limits.maxBmlDepth := by
  obtain ⟨x, hx, -⟩ := Checks.bind_eq_ok.1 h
  exact enforceLimit_eq_ok.1 hx

/-! ## Reading -/

/-- The loop of `read_bml` over the attributes. -/
def readAttributes (limits : CodecLimits) :
    (count : Nat) → (attributes : List (String × String)) → Act WireReader PinCodecError (List (String × String))
  | 0, attributes => pure attributes
  | count + 1, attributes => do
    let key ← readString limits
    require (¬∃ existing ∈ attributes, existing.1 = key) (.duplicateBmlAttribute key)
    let value ← readString limits
    readAttributes limits count (attributes ++ [(key, value)])

/-- `read_bml`: the node and the nodes entered with it. The recursion has `max_bml_depth + 1` levels; below the last one a node
cannot be entered. -/
def readBml (limits : CodecLimits) : (levels depth nodes : Nat) → Act WireReader PinCodecError (BmlObject × Nat)
  | 0, depth, _ => fail (.limitExceeded "BML depth" depth limits.maxBmlDepth)
  | levels + 1, depth, nodes => do
    let nodes ← ofExcept (enter limits depth nodes)
    let name ← readString limits
    let value ← readString limits
    let attributeCount ← readCount "BML attribute count" limits.maxCollectionItems
    let attributes ← readAttributes limits attributeCount []
    let childCount ← readCount "BML child count" limits.maxCollectionItems
    let childDepth ← ofExcept (Checks.orElse (Checked.add depth 1) (.lengthOverflow "BML depth"))
    let children ← times (readBml limits levels childDepth) childCount nodes
    pure (⟨name, value, attributes, children.1⟩, children.2)

def readOptionalBml (limits : CodecLimits) (nodes : Nat) : Act WireReader PinCodecError (Option BmlObject × Nat) := do
  let present ← readBool
  if present then do
    let tree ← readBml limits (limits.maxBmlDepth + 1) 0 nodes
    pure (some tree.1, tree.2)
  else pure (none, nodes)

/-! ## Writing -/

/-- An attribute as `write_bml` writes it. -/
def writeAttribute (maximum : Nat) (limits : CodecLimits) (pair : String × String) :
    Act WireWriter PinCodecError PUnit := do
  writeString maximum pair.1 limits
  writeString maximum pair.2 limits

mutual

/-- `write_bml`: the nodes entered with this one. -/
def writeBml (maximum : Nat) (limits : CodecLimits) : BmlObject → (depth nodes : Nat) → Act WireWriter PinCodecError Nat
  | ⟨name, value, attributes, children⟩, depth, nodes => do
    let nodes ← ofExcept (enter limits depth nodes)
    writeString maximum name limits
    writeString maximum value limits
    writeCount maximum attributes.length "BML attribute count" limits.maxCollectionItems
    writeAll (writeAttribute maximum limits) attributes
    writeCount maximum children.length "BML child count" limits.maxCollectionItems
    let childDepth ← ofExcept (Checks.orElse (Checked.add depth 1) (.lengthOverflow "BML depth"))
    writeChildren maximum limits children childDepth nodes

/-- The loop of `write_bml` over the children. -/
def writeChildren (maximum : Nat) (limits : CodecLimits) :
    List BmlObject → (depth nodes : Nat) → Act WireWriter PinCodecError Nat
  | [], _, nodes => pure nodes
  | child :: children, depth, nodes => do
    let nodes ← writeBml maximum limits child depth nodes
    writeChildren maximum limits children depth nodes

end

def writeOptionalBml (maximum : Nat) (limits : CodecLimits) (value : Option BmlObject) (nodes : Nat) :
    Act WireWriter PinCodecError Nat := do
  writeBool maximum value.isSome
  match value with
  | some value => writeBml maximum limits value 0 nodes
  | none => pure nodes

/-! ## Trees that can be read -/

mutual

/-- No node of the tree names an attribute twice. -/
def KeysDistinct : BmlObject → Prop
  | ⟨_, _, attributes, children⟩ => (attributes.map Prod.fst).Nodup ∧ AllKeysDistinct children

/-- No node of the trees names an attribute twice. -/
def AllKeysDistinct : List BmlObject → Prop
  | [] => True
  | child :: children => KeysDistinct child ∧ AllKeysDistinct children

end

/-- Trees in a row name no attribute twice when none of them does. -/
theorem allKeysDistinct_iff {children : List BmlObject} : AllKeysDistinct children ↔ ∀ c ∈ children, KeysDistinct c := by
  induction children with
  | nil => simp [AllKeysDistinct]
  | cons child children ih => simp [AllKeysDistinct, ih]

namespace BmlAux

/-- Attributes that are read keep their keys distinct. -/
theorem returns_readAttributes (limits : CodecLimits) (count : Nat) (attributes : List (String × String))
    (h : (attributes.map Prod.fst).Nodup) :
    Returns (readAttributes limits count attributes) (fun as => (as.map Prod.fst).Nodup) := by
  induction count generalizing attributes with
  | zero => exact returns_pure h
  | succ count ih =>
    refine (returns_any _).bind fun key _ => (returns_require _ _).bind fun _ hkey =>
      (returns_any _).bind fun value _ => ih _ ?_
    rw [List.map_append, List.nodup_append]
    refine ⟨h, by simp, ?_⟩
    intro a ha b hb hab
    obtain ⟨existing, hmem, rfl⟩ := List.mem_map.1 ha
    simp only [List.map_cons, List.map_nil, List.mem_singleton] at hb
    exact hkey ⟨existing, hmem, hab.trans hb⟩

/-- What readings in a row return is of a kind when each of them is. -/
theorem returns_times {α κ : Type} {step : κ → Act WireReader PinCodecError (α × κ)} {P : α → Prop}
    (h : ∀ k, Returns (step k) (fun p => P p.1)) (count : Nat) (k : κ) :
    Returns (times step count k) (fun p => ∀ a ∈ p.1, P a) := by
  induction count generalizing k with
  | zero => exact returns_pure (by simp)
  | succ count ih =>
    refine (h k).bind fun p hp => (ih p.2).bind fun q hq => returns_pure ?_
    simp only [List.mem_cons, forall_eq_or_imp]
    exact ⟨hp, hq⟩

/-- A tree that is read names no attribute twice. -/
theorem returns_readBml (limits : CodecLimits) (levels depth nodes : Nat) :
    Returns (readBml limits levels depth nodes) (fun p => KeysDistinct p.1) := by
  induction levels generalizing depth nodes with
  | zero =>
    intro s a t h
    simp [readBml] at h
  | succ levels ih =>
    refine (returns_any _).bind fun nodes _ => (returns_any _).bind fun name _ =>
      (returns_any _).bind fun value _ => (returns_any _).bind fun count _ =>
      (returns_readAttributes limits count [] (by simp)).bind fun attributes hattributes =>
      (returns_any _).bind fun childCount _ => (returns_any _).bind fun childDepth _ =>
      (returns_times (fun k => ih childDepth k) childCount nodes).bind fun children hchildren => returns_pure ?_
    simp only [KeysDistinct]
    exact ⟨hattributes, allKeysDistinct_iff.2 hchildren⟩

/-- So does an optional tree. -/
theorem returns_readOptionalBml (limits : CodecLimits) (nodes : Nat) :
    Returns (readOptionalBml limits nodes) (fun p => ∀ tree ∈ p.1, KeysDistinct tree) := by
  refine (returns_any _).bind fun present _ => ?_
  cases present with
  | true =>
    refine (returns_readBml limits _ 0 nodes).bind fun tree htree => returns_pure ?_
    simpa using htree
  | false => exact returns_pure (by simp)

/-! ## Reading what was written -/

/-- The attributes of a node are read back behind others, when all of their keys are distinct. -/
theorem writeAttributes_for (maximum : Nat) (limits : CodecLimits) (attributes before : List (String × String))
    (h : ((before ++ attributes).map Prod.fst).Nodup) :
    WrittenFor (writeAll (writeAttribute maximum limits) attributes)
      (readAttributes limits attributes.length before) (before ++ attributes) := by
  induction attributes generalizing before with
  | nil =>
    refine (writes_pure _).appends.mono ?_
    rintro x out ⟨-, rfl⟩
    rw [List.append_nil]
    exact Takes.pure _
  | cons pair attributes ih =>
    obtain ⟨key, value⟩ := pair
    have hrest : before ++ (key, value) :: attributes = before ++ [(key, value)] ++ attributes := by simp
    have hnew : ¬∃ existing ∈ before, existing.1 = key := by
      rintro ⟨existing, hmem, rfl⟩
      rw [List.map_append, List.nodup_append] at h
      exact h.2.2 _ (List.mem_map_of_mem hmem) _ (by simp) rfl
    refine (((writeString_for maximum key limits).bind fun _ =>
      writeString_for maximum value limits).bind fun _ => ih (before ++ [(key, value)]) (hrest ▸ h)).mono ?_
    rintro x out ⟨-, o₁, o₂, ⟨-, o₃, o₄, hkey, hvalue, rfl⟩, htail, rfl⟩
    rw [List.append_assoc, hrest]
    exact hkey.bind (Takes.bind_nil (Takes.require hnew) (hvalue.bind htail))

mutual

/-- A tree is read back, on every level that the depth limit leaves. -/
theorem writeBml_for (maximum : Nat) (limits : CodecLimits) : ∀ (tree : BmlObject) (depth nodes : Nat), KeysDistinct tree →
    Appends (writeBml maximum limits tree depth nodes) (fun nodes' out => ∀ levels,
      depth + levels = limits.maxBmlDepth + 1 → ReadsAs (readBml limits levels depth nodes) out (tree, nodes'))
  | ⟨name, value, attributes, children⟩, depth, nodes, hkeys => by
    unfold KeysDistinct at hkeys
    have hchildren := writeChildren_for maximum limits children
    have hrest : ∀ nodes, Appends
        (ofExcept (Checks.orElse (Checked.add depth 1) (.lengthOverflow "BML depth")) >>= fun childDepth =>
          writeChildren maximum limits children childDepth nodes)
        (fun nodes' out => ∃ childDepth, Checked.add depth 1 = some childDepth ∧ ∀ levels,
          childDepth + levels = limits.maxBmlDepth + 1 →
            ReadsAs (times (readBml limits levels childDepth) children.length nodes) out (children, nodes')) :=
      fun nodes => appends_ofExcept fun childDepth hdepth =>
        (hchildren childDepth nodes hkeys.2).mono fun _ _ hout => ⟨childDepth, Checks.orElse_eq_ok.1 hdepth, hout⟩
    unfold writeBml
    refine appends_ofExcept fun nodes₁ henter => ?_
    refine ((writeString_for maximum name limits).bind fun _ =>
      (writeString_for maximum value limits).bind fun _ =>
      (writeCount_for maximum attributes.length _ limits.maxCollectionItems).bind fun _ =>
      (writeAttributes_for maximum limits attributes [] (by simpa using hkeys.1)).bind fun _ =>
      (writeCount_for maximum children.length _ limits.maxCollectionItems).bind fun _ => hrest nodes₁).mono ?_
    rintro nodes' out ⟨-, o₁, o₂, hname, ⟨-, o₃, o₄, hvalue, ⟨-, o₅, o₆, hcount, ⟨-, o₇, o₈, hattributes, ⟨-, o₉, o₁₀,
      hchildCount, ⟨childDepth, hdepth, hout⟩, rfl⟩, rfl⟩, rfl⟩, rfl⟩, rfl⟩ levels hlevels
    have hle := depth_le_of_enter henter
    have hnext := (Checked.add_eq_some.1 hdepth).1
    obtain ⟨levels, rfl⟩ : ∃ l, levels = l + 1 := ⟨levels - 1, by omega⟩
    exact Takes.bind_nil (Takes.ofExcept henter) (hname.bind (hvalue.bind (hcount.bind (hattributes.bind
      (hchildCount.bind (Takes.bind_nil (Takes.ofExcept (Checks.orElse_eq_ok.2 hdepth))
        ((hout levels (by omega)).bind_end (Takes.pure _))))))))

/-- Trees in a row are read back. -/
theorem writeChildren_for (maximum : Nat) (limits : CodecLimits) : ∀ (children : List BmlObject) (depth nodes : Nat),
    AllKeysDistinct children →
    Appends (writeChildren maximum limits children depth nodes) (fun nodes' out => ∀ levels,
      depth + levels = limits.maxBmlDepth + 1 →
        ReadsAs (times (readBml limits levels depth) children.length nodes) out (children, nodes'))
  | [], depth, nodes, _ => by
    unfold writeChildren
    refine (writes_pure _).appends.mono ?_
    rintro nodes' out ⟨rfl, rfl⟩ levels _
    exact Takes.pure _
  | child :: children, depth, nodes, hkeys => by
    unfold AllKeysDistinct at hkeys
    have hchild := writeBml_for maximum limits child depth nodes hkeys.1
    have hchildren := writeChildren_for maximum limits children depth
    unfold writeChildren
    refine (hchild.bind fun nodes₁ => hchildren nodes₁ hkeys.2).mono ?_
    rintro nodes' out ⟨nodes₁, o₁, o₂, h₁, h₂, rfl⟩ levels hlevels
    exact (h₁ levels hlevels).bind ((h₂ levels hlevels).bind_end (Takes.pure _))

end

/-- An optional tree is read back. -/
theorem writeOptionalBml_for (maximum : Nat) (limits : CodecLimits) (value : Option BmlObject) (nodes : Nat)
    (hkeys : ∀ tree ∈ value, KeysDistinct tree) :
    Appends (writeOptionalBml maximum limits value nodes)
      (fun nodes' out => ReadsAs (readOptionalBml limits nodes) out (value, nodes')) := by
  cases value with
  | none =>
    refine ((writeBool_for maximum false).bind fun _ => (writes_pure nodes).appends).mono ?_
    rintro nodes' out ⟨-, o₁, o₂, hflag, ⟨rfl, rfl⟩, rfl⟩
    exact hflag.bind (Takes.pure _)
  | some tree =>
    refine ((writeBool_for maximum true).bind fun _ =>
      writeBml_for maximum limits tree 0 nodes (hkeys tree rfl)).mono ?_
    rintro nodes' out ⟨-, o₁, o₂, hflag, htree, rfl⟩
    exact hflag.bind ((htree _ (Nat.zero_add _)).bind_end (Takes.pure _))

end BmlAux

end P5136.Connector
