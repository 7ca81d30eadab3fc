import Rulebook.Literal

/-!
# Nodes

A script is made of nodes. A node is of some variant, may carry a literal, and
holds other nodes in its slots, each under the name of a parameter. It also
knows who holds it, so that a node is never held twice and one can walk from
any node up to the root above it.
-/

namespace Rulebook

/-- Who holds a node. -/
inductive Owner where
  /-- No one. -/
  | detached
  /-- A slot of another node. -/
  | argument (parent : NodeId)
  /-- A list of a trigger. -/
  | trigger (trigger : TriggerId)
deriving DecidableEq, Repr

/-- A filled slot: the name of the parameter and the node in it. -/
structure Binding where
  param : String
  child : NodeId
deriving DecidableEq, Repr

/-- A node of a script. Kind and type are those of its variant and never change. -/
structure Node where
  id : NodeId
  variant : VariantId
  kind : NodeKind
  result : ValueType
  literal : Option Literal := none
  /-- The filled slots, in the order in which they were filled. -/
  arguments : List Binding := []
  owner : Owner := .detached
deriving DecidableEq

namespace Node

/-- The node in a slot. -/
def argument? (node : Node) (param : String) : Option NodeId :=
  (node.arguments.find? fun binding => binding.param == param).map (·.child)

/-- The nodes in the slots, in the order in which these were filled. -/
def children (node : Node) : List NodeId := node.arguments.map (·.child)

/-- Whether no one holds the node. -/
def isDetached (node : Node) : Bool := node.owner == .detached

/-- The node with one more slot filled. -/
def fill (node : Node) (param : String) (child : NodeId) : Node :=
  { node with arguments := node.arguments ++ [⟨param, child⟩] }

/-- The node with a slot emptied, by the name of the slot. -/
def clear (node : Node) (param : String) : Node :=
  { node with arguments := node.arguments.filter fun binding => binding.param != param }

/-- The node with a slot emptied, by what was in it. -/
def release (node : Node) (child : NodeId) : Node :=
  { node with arguments := node.arguments.filter fun binding => binding.child != child }

end Node

end Rulebook
