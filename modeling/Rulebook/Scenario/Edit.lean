import Rulebook.Forest.Edit
import Rulebook.Scenario

/-!
# Editing a scenario

One operation for each request of an editor. Each checks first and changes
afterwards, so a refused request changes nothing. Only the requests that build
nodes before they can tell may leave a trace, and that trace is a gap in the
numbering of nodes.
-/

namespace Rulebook

namespace Scenario

/-- An edit of a scenario. -/
abbrev Edit (α : Type) := Attempt Rejection Scenario α

/-- An edit of the nodes, as an edit of the scenario. -/
def onForest {α : Type} (edit : Forest.Edit α) : Edit α :=
  edit.within Scenario.forest fun forest scenario => { scenario with forest }

/-! ## Triggers -/

/-- Where a trigger stands, or the complaint that it does not exist. -/
def requireTrigger (scenario : Scenario) (id : TriggerId) : Except Rejection Nat :=
  match scenario.triggerIndex? id with
  | some index => .ok index
  | none => .error (.unknownTrigger id)

/-- Changes one trigger. -/
def updateTrigger (id : TriggerId) (f : Trigger → Trigger) : Edit Unit := do
  let scenario ← get
  let index ← scenario.requireTrigger id
  set { scenario with triggers := scenario.triggers.modify index f }

/-- Appends a new, enabled trigger with empty lists. -/
def addTrigger (name : String) : Edit TriggerId := do
  let scenario ← get
  let trigger : Trigger := { id := ⟨scenario.nextTrigger⟩, name }
  set { scenario with
    triggers := scenario.triggers ++ [trigger], nextTrigger := scenario.nextTrigger + 1 }
  return trigger.id

/-- Removes several trees, one after the other. -/
def removeTrees (forest : Forest) (roots : List NodeId) : Forest :=
  roots.foldl Forest.removeSubtree forest

/-- Deletes a trigger with every node below its lists. Says how many nodes these were. -/
def deleteTrigger (id : TriggerId) : Edit Nat := do
  let scenario ← get
  let index ← scenario.requireTrigger id
  let roots := (scenario.triggers[index]?.map Trigger.allRoots).getD []
  let forest := removeTrees scenario.forest roots
  set { scenario with forest, triggers := scenario.triggers.eraseIdx index }
  return scenario.forest.size - forest.size

/-- Renames a trigger. -/
def renameTrigger (id : TriggerId) (name : String) : Edit Unit :=
  updateTrigger id fun trigger => { trigger with name }

/-- Enables or disables a trigger. -/
def setTriggerEnabled (id : TriggerId) (enabled : Bool) : Edit Unit :=
  updateTrigger id fun trigger => { trigger with enabled }

/-- A place to move to must be one of those that the list has. -/
def checkTarget (target length : Nat) : Except Rejection Unit :=
  if target < length then .ok () else .error (.indexOutOfBounds target length)

/-- Moves a trigger to another place among the triggers. -/
def moveTrigger (id : TriggerId) (target : Nat) : Edit Unit := do
  let scenario ← get
  let origin ← scenario.requireTrigger id
  checkTarget target scenario.triggers.length
  set { scenario with triggers := moveEntry scenario.triggers origin target }

/-! ## Roots in the lists of triggers -/

/-- Appends a detached node to a list of a trigger that takes such nodes. -/
def attach (id : TriggerId) (clause : Clause) (root : NodeId) : Edit Unit := do
  let scenario ← get
  let index ← scenario.requireTrigger id
  let node ← scenario.forest.require root
  unless node.isDetached do
    throw (.alreadyBound root)
  unless clause.accepts node.kind node.result do
    throw (.wrongKind node.variant clause.expects node.kind)
  set { scenario with
    forest := scenario.forest.setOwner root (.trigger id)
    triggers := scenario.triggers.modify index fun trigger =>
      trigger.mapRoots clause fun roots => roots ++ [root] }

/-- Drafts a node of a variant and appends it to a list of a trigger. A draft that the list
does not take is removed again. -/
def addDraft (registry : Registry) (id : TriggerId) (clause : Clause) (variant : VariantId) :
    Edit NodeId := do
  let _ ← (← get).requireTrigger id
  let node ← onForest (Forest.createDraft registry variant)
  (attach id clause node).onFailure fun scenario =>
    { scenario with forest := scenario.forest.removeSubtree node }
  return node

/-- Takes a root out of the list of the trigger that holds it. -/
def unlist (owner : Owner) (root : NodeId) : Edit Unit :=
  match owner with
  | .trigger id => updateTrigger id fun trigger =>
    match trigger.position? root with
    | some (clause, index) => trigger.mapRoots clause fun roots => roots.eraseIdx index
    | none => trigger
  | _ => return ()

/-- Deletes a node and everything below it, wherever it is held. Says how many nodes these
were. -/
def deleteNode (id : NodeId) : Edit Nat := do
  let node ← (← get).forest.require id
  unlist node.owner id
  onForest (Forest.remove id)

/-- Where a root stands in the lists of a trigger, or the complaint that it does not. -/
def requirePosition (trigger : Option Trigger) (root : NodeId) :
    Except Rejection (Clause × Nat) :=
  match trigger.bind fun trigger => trigger.position? root with
  | some position => .ok position
  | none => .error (.unknownNode root)

/-- Moves a root to another place in its list. -/
def moveNode (id : NodeId) (target : Nat) : Edit Unit := do
  let scenario ← get
  let node ← scenario.forest.require id
  let .trigger holder := node.owner | throw (.unknownNode id)
  let index ← scenario.requireTrigger holder
  let (clause, origin) ← requirePosition scenario.triggers[index]? id
  let length := (scenario.triggers[index]?.map fun trigger => (trigger.roots clause).length).getD 0
  checkTarget target length
  set { scenario with
    triggers := scenario.triggers.modify index fun trigger =>
      trigger.mapRoots clause fun roots => moveEntry roots origin target }

/-! ## Nodes -/

/-- Makes a complete, detached node. -/
def createNode (registry : Registry) (variant : VariantId) (arguments : List (String × NodeId))
    (literal : Option Literal) : Edit NodeId :=
  onForest (Forest.createNode registry variant arguments literal)

/-- Makes a detached node with all slots unset. -/
def createDraft (registry : Registry) (variant : VariantId) : Edit NodeId :=
  onForest (Forest.createDraft registry variant)

/-- Builds a tree as new nodes and yields its detached root. -/
def insertTree (registry : Registry) (tree : NodeTree) : Edit NodeId :=
  onForest (Forest.insertTree registry tree)

/-- Puts a detached child into a slot; what was there is removed. -/
def setArgument (registry : Registry) (node : NodeId) (param : String) (child : NodeId) :
    Edit Unit :=
  onForest (Forest.setArgument registry node param child)

/-- Empties a slot and removes what was in it. Says whether there was anything. -/
def clearArgument (registry : Registry) (node : NodeId) (param : String) : Edit Bool :=
  onForest (Forest.clearArgument registry node param)

/-- Replaces the literal of a value node. -/
def setLiteral (node : NodeId) (literal : Literal) : Edit Unit :=
  onForest (Forest.setLiteral node literal)

/-! ## Regions -/

/-- Appends a new region. -/
def pushRegion (name : String) (stableId : Option Uuid) (bounds : Bounds) : Edit RegionId := do
  let scenario ← get
  let region : Region := { id := ⟨scenario.nextRegion⟩, name, stableId, bounds }
  set { scenario with
    regions := scenario.regions ++ [region], nextRegion := scenario.nextRegion + 1 }
  return region.id

/-- Appends a region that belongs to this scenario alone. -/
def addRegion (name : String) (bounds : Bounds) : Edit RegionId := pushRegion name none bounds

/-- Appends a region with a fresh stable identifier, made of random bits. -/
def addFreshRegion (name : String) (bits : BitVec 128) (bounds : Bounds) : Edit RegionId :=
  pushRegion name (some (Uuid.ofRandomBits bits)) bounds

/-- Appends a region with a stable identifier that no other region here has. -/
def addSharedRegion (name : String) (stableId : Uuid) (bounds : Bounds) : Edit RegionId := do
  if ((← get).regionOfStableId? stableId).isSome then
    throw (.duplicateStableId stableId)
  pushRegion name (some stableId) bounds

/-- Renames a region. -/
def renameRegion (id : RegionId) (name : String) : Edit Unit := do
  let scenario ← get
  match scenario.regions.findIdx? fun region => region.id == id with
  | none => throw (.unknownRegion id)
  | some index =>
    set { scenario with regions := scenario.regions.modify index fun region => { region with name } }

/-- Removes a region and yields it, if it was there. Literals that refer to it stay behind and
refer to nothing. -/
def removeRegion (id : RegionId) : Edit (Option Region) := do
  let scenario ← get
  match scenario.regions.findIdx? fun region => region.id == id with
  | none => return none
  | some index =>
    set { scenario with regions := scenario.regions.eraseIdx index }
    return scenario.regions[index]?

end Scenario

end Rulebook
