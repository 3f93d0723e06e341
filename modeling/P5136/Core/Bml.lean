import P5136.Core.Packet

/-!
# The BML codec

The bounded codec of the recursive tree that a login carries. The reader and the writer check the same limits in the same
order: the depth and the number of nodes when they enter a node, then the lengths of its strings and the two counts.
-/

namespace P5136

/-- The bounds of a tree. -/
structure BmlLimits where
  maxDepth : Nat
  maxNodes : Nat
  maxAttributesPerNode : Nat
  maxChildrenPerNode : Nat
  maxStringCodeUnits : Nat
deriving DecidableEq

def BmlLimits.default : BmlLimits where
  maxDepth := 8
  maxNodes := 64
  maxAttributesPerNode := 64
  maxChildrenPerNode := 64
  maxStringCodeUnits := 1024

/-- A tree. -/
structure BmlNode where
  name : String
  value : String
  attributes : List (String × String)
  children : List BmlNode

/-- Why a tree cannot be read or written. -/
inductive BmlError where
  | packet (error : PacketError)
  | depthExceeded (depth maximum : Nat)
  | nodeLimitExceeded (maximum : Nat)
  | invalidCount (kind : String) (count : Int) (maximum : Nat)
  | countOverflow (kind : String) (count : Nat)
  | stringLimitExceeded (field : String) (length maximum : Nat)
deriving DecidableEq

namespace Bml

/-- `check_node_admission`: the depth, then the number of nodes with this one, which is returned. -/
def checkNodeAdmission (limits : BmlLimits) (depth nodeCount : Nat) : Except BmlError Nat :=
  if depth > limits.maxDepth then .error (.depthExceeded depth limits.maxDepth)
  else match Checked.add nodeCount 1 with
  | none => .error (.nodeLimitExceeded limits.maxNodes)
  | some nodeCount =>
    if nodeCount > limits.maxNodes then .error (.nodeLimitExceeded limits.maxNodes) else .ok nodeCount

/-! ## Reading -/

def readCount (kind : String) (maximum : Nat) : Act PacketReader BmlError Nat := do
  let count ← Act.mapError .packet PacketReader.readI32
  let unsigned ← Act.ofExcept (Checks.orElse (Checked.toSize count) (.invalidCount kind count maximum))
  Act.require (¬unsigned > maximum) (.invalidCount kind count maximum)
  pure unsigned

/-- A string of a tree. -/
def readString (limits : BmlLimits) : Act PacketReader BmlError String :=
  Act.mapError .packet (PacketReader.readUtf16Bounded limits.maxStringCodeUnits)

/-- The name and the value of an attribute. -/
def readAttribute (limits : BmlLimits) : Act PacketReader BmlError (String × String) := do
  let attributeName ← readString limits
  let attributeValue ← readString limits
  pure (attributeName, attributeValue)

/-- `decode_node`: the node and the number of nodes with it. The recursion has `max_depth + 1` levels; below the last one the
check of the depth fails. -/
def decodeNode (limits : BmlLimits) : (levels depth nodeCount : Nat) → Act PacketReader BmlError (BmlNode × Nat)
  | 0, depth, _ => Act.fail (.depthExceeded depth limits.maxDepth)
  | levels + 1, depth, nodeCount => do
    let nodeCount ← Act.ofExcept (checkNodeAdmission limits depth nodeCount)
    let name ← readString limits
    let value ← readString limits
    let attributeCount ← readCount "attribute" limits.maxAttributesPerNode
    let attributes ← Format.collect (readAttribute limits) attributeCount
    let childCount ← readCount "child" limits.maxChildrenPerNode
    let (children, nodeCount) ← Format.times (decodeNode limits levels (depth + 1)) childCount nodeCount
    pure (⟨name, value, attributes, children⟩, nodeCount)

/-! ## Writing -/

def writeCount (kind : String) (count maximum : Nat) : Act PacketWriter BmlError PUnit := do
  Act.require (¬count > maximum) (.invalidCount kind ((Checked.toI32 count).getD (2 ^ 31 - 1)) maximum)
  let signed ← Act.ofExcept (Checks.orElse (Checked.toI32 count) (.countOverflow kind count))
  PacketWriter.writeI32 signed

def writeBoundedString (value field : String) (limits : BmlLimits) : Act PacketWriter BmlError PUnit := do
  let length := (utf16Units value).length
  Act.require (¬length > limits.maxStringCodeUnits) (.stringLimitExceeded field length limits.maxStringCodeUnits)
  Act.mapError .packet (PacketWriter.writeUtf16 value)

/-- The name and the value of an attribute. -/
def writeAttribute (limits : BmlLimits) (pair : String × String) : Act PacketWriter BmlError PUnit := do
  writeBoundedString pair.1 "attribute name" limits
  writeBoundedString pair.2 "attribute value" limits

mutual

/-- `encode_node`: the number of nodes with this one is returned. -/
def encodeNode (limits : BmlLimits) : (node : BmlNode) → (depth nodeCount : Nat) → Act PacketWriter BmlError Nat
  | ⟨name, value, attributes, children⟩, depth, nodeCount => do
    let nodeCount ← Act.ofExcept (checkNodeAdmission limits depth nodeCount)
    writeBoundedString name "node name" limits
    writeBoundedString value "node value" limits
    writeCount "attribute" attributes.length limits.maxAttributesPerNode
    Format.writeAll (writeAttribute limits) attributes
    writeCount "child" children.length limits.maxChildrenPerNode
    encodeChildren limits children (depth + 1) nodeCount

/-- The loop of `encode_node` over the children. -/
def encodeChildren (limits : BmlLimits) : (children : List BmlNode) → (depth nodeCount : Nat) → Act PacketWriter BmlError Nat
  | [], _, nodeCount => pure nodeCount
  | child :: children, depth, nodeCount => do
    let nodeCount ← encodeNode limits child depth nodeCount
    encodeChildren limits children depth nodeCount

end

end Bml

namespace BmlNode

def decodeWithLimits (limits : BmlLimits) : Act PacketReader BmlError BmlNode := do
  let (node, _) ← Bml.decodeNode limits (limits.maxDepth + 1) 0 0
  pure node

def encodeWithLimits (node : BmlNode) (limits : BmlLimits) : Act PacketWriter BmlError PUnit := do
  let _ ← Bml.encodeNode limits node 0 0
  pure ⟨⟩

/-! ## The format of trees -/

mutual

/-- The number of nodes of a tree. -/
def nodes : BmlNode → Nat
  | ⟨_, _, _, children⟩ => 1 + nodesAll children

/-- The number of nodes of trees. -/
def nodesAll : List BmlNode → Nat
  | [] => 0
  | child :: children => nodes child + nodesAll children

end

/-- The bytes of an attribute. -/
def spellAttribute (pair : String × String) : List UInt8 := spellString pair.1 ++ spellString pair.2

mutual

/-- The bytes of a tree. -/
def spell : BmlNode → List UInt8
  | ⟨name, value, attributes, children⟩ =>
    spellString name ++ spellString value ++ spellCount attributes.length ++ attributes.flatMap spellAttribute ++
      spellCount children.length ++ spellAll children

/-- The bytes of trees in a row. -/
def spellAll : List BmlNode → List UInt8
  | [] => []
  | child :: children => spell child ++ spellAll children

end

/-- Both strings of an attribute fit. -/
def AttributeFits (limits : BmlLimits) (pair : String × String) : Prop :=
  StringFits limits.maxStringCodeUnits pair.1 ∧ StringFits limits.maxStringCodeUnits pair.2

mutual

/-- The tree fits the limits, `depth` levels down and after `nodeCount` other nodes. -/
def Fits (limits : BmlLimits) : (depth nodeCount : Nat) → BmlNode → Prop
  | depth, nodeCount, ⟨name, value, attributes, children⟩ =>
    depth ≤ limits.maxDepth ∧ nodeCount + 1 ≤ limits.maxNodes ∧ nodeCount + 1 < 2 ^ 64 ∧
    StringFits limits.maxStringCodeUnits name ∧ StringFits limits.maxStringCodeUnits value ∧
    CountFits limits.maxAttributesPerNode attributes.length ∧ (∀ a ∈ attributes, AttributeFits limits a) ∧
    CountFits limits.maxChildrenPerNode children.length ∧ FitAll limits (depth + 1) (nodeCount + 1) children

/-- The trees fit one after another. -/
def FitAll (limits : BmlLimits) : (depth nodeCount : Nat) → List BmlNode → Prop
  | _, _, [] => True
  | depth, nodeCount, child :: children =>
    Fits limits depth nodeCount child ∧ FitAll limits depth (nodeCount + nodes child) children

end

end BmlNode

end P5136
