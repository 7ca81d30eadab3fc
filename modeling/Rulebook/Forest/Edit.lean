import Rulebook.Forest
import Rulebook.Registry

/-!
# Editing a forest

Nodes are made, bound to slots, and removed with everything below them. Each
edit checks first and changes afterwards, so one that is refused changes
nothing. Inserting a whole tree cannot check everything first; it takes away
again what it had built.
-/

namespace Rulebook

namespace Forest

/-- An edit of a forest. -/
abbrev Edit (α : Type) := Attempt Rejection Forest α

/-! ## Checks -/

/-- A variant takes a literal of the type that it carries, and none if it carries none. -/
def checkLiteral (variant : Variant) (literal : Option Literal) : Except Rejection Unit :=
  let found := literal.map (·.type)
  if variant.literal = found then .ok ()
  else .error (.literalMismatch variant.id variant.literal found)

/-- A child fits a slot if it exists, no one holds it, and it has the slot's type. -/
def checkBinding (forest : Forest) (variant : Variant) (param : String) (child : NodeId) :
    Except Rejection Unit := do
  let some slot := variant.param? param | throw (.unknownParameter variant.id param)
  let node ← forest.require child
  unless node.isDetached do
    throw (.alreadyBound child)
  unless node.result = slot.type do
    throw (.argumentType variant.id param slot.type node.result)

/-- Checks arguments in order: no slot and no child may have occurred among the `earlier`
ones, and each child must fit its slot. -/
def checkArguments (forest : Forest) (variant : Variant) (earlier : List (String × NodeId)) :
    List (String × NodeId) → Except Rejection Unit
  | [] => .ok ()
  | (param, child) :: rest => do
    if earlier.any fun known => known.1 == param then
      throw (.invalidParameterName variant.id param)
    if earlier.any fun known => known.2 == child then
      throw (.alreadyBound child)
    forest.checkBinding variant param child
    forest.checkArguments variant (earlier ++ [(param, child)]) rest

/-- Every required parameter must be among the arguments. -/
def checkComplete (variant : Variant) (arguments : List (String × NodeId)) :
    Except Rejection Unit :=
  match variant.params.find? fun param =>
      param.isRequired && !arguments.any fun given => given.1 == param.name with
  | some missing => .error (.missingParameter variant.id missing.name)
  | none => .ok ()

/-! ## Changes -/

/-- The forest with a new, detached node under the next number. -/
def plant (forest : Forest) (variant : Variant) (literal : Option Literal) : Forest :=
  let id : NodeId := ⟨forest.nextId⟩
  let node : Node :=
    { id, variant := variant.id, kind := variant.kind, result := variant.result, literal }
  { nodes := forest.nodes.insert id node, nextId := forest.nextId + 1 }

/-- The forest with a child in a slot. -/
def fillSlot (forest : Forest) (parent : NodeId) (param : String) (child : NodeId) : Forest :=
  (forest.update parent fun node => node.fill param child).setOwner child (.argument parent)

/-- The forest with children in several slots of a node, filled in order. -/
def fillSlots (forest : Forest) (parent : NodeId) (arguments : List (String × NodeId)) : Forest :=
  arguments.foldl (fun grown given => grown.fillSlot parent given.1 given.2) forest

/-- The forest in which the parent of a node, if a slot holds it, has let go of it. -/
def unhook (forest : Forest) (id : NodeId) (owner : Owner) : Forest :=
  match owner with
  | .argument parent => forest.update parent fun node => node.release id
  | _ => forest

/-- The nodes without a node and everything below it, no more than `fuel` levels. A node is gone
before the walk goes on below it, so none is visited twice and no way down is longer than there
are nodes. -/
def prune : (fuel : Nat) → NodeId → Std.ExtTreeMap NodeId Node → Std.ExtTreeMap NodeId Node
  | 0, _, nodes => nodes
  | fuel + 1, id, nodes =>
    match nodes[id]? with
    | none => nodes
    | some node => node.children.foldl (fun rest child => prune fuel child rest) (nodes.erase id)

/-- The forest without a node and everything below it. A slot that held the node is empty
afterwards; the lists of triggers are not looked at. -/
def removeSubtree (forest : Forest) (id : NodeId) : Forest :=
  match forest.get? id with
  | none => forest
  | some node =>
    let freed := forest.unhook id node.owner
    { freed with nodes := prune freed.size id freed.nodes }

/-- The forest with a slot emptied and what was in it removed. -/
def vacate (forest : Forest) (parent : NodeId) (param : String) : Forest :=
  match (forest.get? parent).bind fun node => node.argument? param with
  | none => forest
  | some child =>
    let loose := (forest.setOwner child .detached).update parent fun node => node.clear param
    loose.removeSubtree child

/-! ## Edits -/

/-- Adds a new, detached node. -/
def add (variant : Variant) (literal : Option Literal) : Edit NodeId :=
  Attempt.ofRun fun forest => (.ok ⟨forest.nextId⟩, forest.plant variant literal)

/-- Makes a complete node: its literal fits, its arguments fit, and no required one is
missing. -/
def createNode (registry : Registry) (id : VariantId) (arguments : List (String × NodeId))
    (literal : Option Literal) : Edit NodeId := do
  let forest ← get
  let variant ← registry.require id
  checkLiteral variant literal
  forest.checkArguments variant [] arguments
  checkComplete variant arguments
  let node ← add variant literal
  modify fun grown => grown.fillSlots node arguments
  return node

/-- The literal that a draft of the variant starts from. -/
def draftLiteral (variant : Variant) : Except Rejection (Option Literal) :=
  match variant.literal with
  | none => .ok none
  | some type =>
    match Literal.neutral? type with
    | some literal => .ok (some literal)
    | none => .error (.literalMismatch variant.id (some type) none)

/-- Makes a draft: a node with all slots unset and a neutral literal. A variant whose literal
is a reference has no neutral one and cannot be drafted. -/
def createDraft (registry : Registry) (id : VariantId) : Edit NodeId := do
  let variant ← registry.require id
  let literal ← draftLiteral variant
  add variant literal

/-- Replaces the literal of a value node by one of the same type. -/
def setLiteral (id : NodeId) (literal : Literal) : Edit Unit := do
  let node ← (← get).require id
  unless node.kind = .value ∧ literal.type = node.result do
    let expected := if node.kind = .value then some node.result else none
    throw (.literalMismatch node.variant expected (some literal.type))
  modify fun forest => forest.update id fun node => { node with literal := some literal }

/-- Puts a child into a slot; what was there is removed. The child may not be the node itself
or lie above it. -/
def setArgument (registry : Registry) (id : NodeId) (param : String) (child : NodeId) :
    Edit Unit := do
  let forest ← get
  let node ← forest.require id
  let variant ← registry.require node.variant
  forest.checkBinding variant param child
  if child ∈ forest.lineage id then
    throw (.cycle id child)
  set ((forest.vacate id param).fillSlot id param child)

/-- Empties a slot and removes what was in it. Says whether there was anything. -/
def clearArgument (registry : Registry) (id : NodeId) (param : String) : Edit Bool := do
  let forest ← get
  let node ← forest.require id
  let variant ← registry.require node.variant
  unless (variant.param? param).isSome do
    throw (.unknownParameter variant.id param)
  match node.argument? param with
  | none => return false
  | some child =>
    set (forest.removeSubtree child)
    return true

/-- Removes a node and everything below it. Says how many nodes these were. -/
def remove (id : NodeId) : Edit Nat :=
  Attempt.ofRun fun forest =>
    let rest := forest.removeSubtree id
    (.ok (forest.size - rest.size), rest)

mutual

/-- Builds a tree as new nodes and yields its detached root. Slots may stay unset. If the tree
breaks a rule anywhere, all that was built is removed again. -/
def insertTree (registry : Registry) : NodeTree → Edit NodeId
  | ⟨id, literal, arguments⟩ => do
    let variant ← registry.require id
    checkLiteral variant literal
    let root ← add variant literal
    (insertArguments registry root arguments).onFailure (·.removeSubtree root)
    return root

/-- Builds the trees in the slots of a node, one after the other. -/
def insertArguments (registry : Registry) (root : NodeId) :
    List (String × NodeTree) → Edit Unit
  | [] => return ()
  | (param, tree) :: rest => do
    let child ← insertTree registry tree
    (setArgument registry root param child).onFailure (·.removeSubtree child)
    insertArguments registry root rest

end

end Forest

end Rulebook
