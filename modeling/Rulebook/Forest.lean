import Rulebook.Attempt
import Rulebook.Node
import Rulebook.NodeTree
import Rulebook.Rejection

/-!
# Forests

All nodes of a script, by number. Following slots downward a node is the root
of a tree; following owners upward one comes to a node that no slot holds. New
nodes take numbers that were never used before.

Walks through the forest carry a bound on their length. A walk that never
comes back to a node is no longer than there are nodes, so bounding it by
their number cuts nothing off.
-/

namespace Rulebook

/-- The nodes of a script and the number of the next one. -/
structure Forest where
  nodes : Std.ExtTreeMap NodeId Node := ∅
  nextId : Nat := 0
deriving DecidableEq

namespace Forest

/-- The forest without nodes. -/
def empty : Forest := {}

/-- The number of nodes. -/
def size (forest : Forest) : Nat := forest.nodes.size

/-- The node of a number. -/
def get? (forest : Forest) (id : NodeId) : Option Node := forest.nodes[id]?

/-- Whether there is a node of the number. -/
def contains (forest : Forest) (id : NodeId) : Bool := forest.nodes.contains id

/-- The node of a number, or the complaint that there is none. -/
def require (forest : Forest) (id : NodeId) : Except Rejection Node :=
  match forest.get? id with
  | some node => .ok node
  | none => .error (.unknownNode id)

/-- Changes one node. -/
def update (forest : Forest) (id : NodeId) (f : Node → Node) : Forest :=
  { forest with nodes := forest.nodes.modify id f }

/-- Says who holds a node. -/
def setOwner (forest : Forest) (id : NodeId) (owner : Owner) : Forest :=
  forest.update id fun node => { node with owner }

/-! ## Walks -/

/-- The node and everything below it, parents first, slots in the order in which they were
filled; no more than `fuel` levels. -/
def preorder (forest : Forest) : (fuel : Nat) → NodeId → List NodeId
  | 0, _ => []
  | fuel + 1, id =>
    match forest.get? id with
    | none => []
    | some node => id :: node.children.flatMap (forest.preorder fuel)

/-- The node and everything below it, parents first. -/
def subtree (forest : Forest) (id : NodeId) : List NodeId := forest.preorder forest.size id

/-- The node, the node that holds it, and so on upward; no more than `fuel` nodes. -/
def climb (forest : Forest) : (fuel : Nat) → NodeId → List NodeId
  | 0, _ => []
  | fuel + 1, id =>
    match (forest.get? id).map Node.owner with
    | some (.argument parent) => id :: forest.climb fuel parent
    | _ => [id]

/-- The node and all nodes above it. -/
def lineage (forest : Forest) (id : NodeId) : List NodeId := forest.climb (forest.size + 1) id

/-- The tree of a node, no more than `fuel` levels deep. -/
def treeWithin (forest : Forest) : (fuel : Nat) → NodeId → Option NodeTree
  | 0, _ => none
  | fuel + 1, id => do
    let node ← forest.get? id
    let filled ← node.arguments.mapM fun binding => do
      return (binding.param, ← forest.treeWithin fuel binding.child)
    return ⟨node.variant, node.literal, NodeTree.slots filled⟩

/-- The tree of a node. There is none if the node, or one below it, does not exist. -/
def snapshot (forest : Forest) (id : NodeId) : Option NodeTree :=
  forest.treeWithin forest.size id

end Forest

end Rulebook
