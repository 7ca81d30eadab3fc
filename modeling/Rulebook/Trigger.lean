import Rulebook.Node

/-!
# Triggers

When one of its events happens and all of its conditions hold, a trigger runs
its actions. It holds the root nodes of each in a list of its own.
-/

namespace Rulebook

/-- One of the three lists of a trigger. -/
inductive Clause where
  /-- What the trigger listens for; any one of them is enough. -/
  | events
  /-- What must hold, checked in order. -/
  | conditions
  /-- What is done, in order. -/
  | actions
deriving DecidableEq, Repr

namespace Clause

/-- The lists in the order in which they take part. -/
def all : List Clause := [events, conditions, actions]

/-- What one entry of the list is called. -/
def name : Clause → String
  | events => "event"
  | conditions => "condition"
  | actions => "action"

/-- Whether a node of this kind and type may stand in the list. -/
def accepts (clause : Clause) (kind : NodeKind) (result : ValueType) : Bool :=
  match clause with
  | events => kind == .event
  | conditions => result == .bool && kind != .event && kind != .action
  | actions => kind == .action

/-- What the list takes, in words. -/
def expects : Clause → String
  | events => "an event"
  | conditions => "a boolean condition"
  | actions => "an action"

end Clause

/-- A trigger with the roots of its three lists. -/
structure Trigger where
  id : TriggerId
  name : String
  /-- A disabled trigger never runs. -/
  enabled : Bool := true
  events : List NodeId := []
  conditions : List NodeId := []
  actions : List NodeId := []
deriving DecidableEq, Repr

namespace Trigger

/-- The roots of one list. -/
def roots (trigger : Trigger) : Clause → List NodeId
  | .events => trigger.events
  | .conditions => trigger.conditions
  | .actions => trigger.actions

/-- The roots of all lists. -/
def allRoots (trigger : Trigger) : List NodeId := Clause.all.flatMap trigger.roots

/-- The trigger with one list changed. -/
def mapRoots (trigger : Trigger) (clause : Clause) (f : List NodeId → List NodeId) : Trigger :=
  match clause with
  | .events => { trigger with events := f trigger.events }
  | .conditions => { trigger with conditions := f trigger.conditions }
  | .actions => { trigger with actions := f trigger.actions }

/-- The list that holds a root, and where in it the root stands first. -/
def position? (trigger : Trigger) (node : NodeId) : Option (Clause × Nat) :=
  Clause.all.findSome? fun clause =>
    ((trigger.roots clause).idxOf? node).map fun index => (clause, index)

end Trigger

/-- The list with one entry taken from one place and put at another. -/
def moveEntry {α : Type} (entries : List α) (origin target : Nat) : List α :=
  match entries[origin]? with
  | some entry => (entries.eraseIdx origin).insertIdx target entry
  | none => entries

end Rulebook
