import Rulebook.Interchange.Entry
import Rulebook.Interchange.LiteralText
import Rulebook.Registry

/-!
# Writing a tree

The entries of a node and of everything below it: a node before its slots, and
slots in the order in which the variant declares them. Slots that are unset
leave no entry.
-/

namespace Rulebook

namespace Scenario

/-- The entries of a node itself: its variant, and its literal if it has one. -/
def ownEntries (scenario : Scenario) (path : Path) (node : Node) :
    Except InterchangeError (List Entry) := do
  let definition : Entry := ⟨path, .definition, node.variant.toList⟩
  match node.literal with
  | none => return [definition]
  | some literal => return [definition, ⟨path, .value, ← LiteralText.write scenario literal⟩]

/-- The nodes in the slots that the variant declares, in that order, with the paths to them. -/
def declaredChildren (variant : Variant) (path : Path) (node : Node) : List (Path × NodeId) :=
  variant.params.filterMap fun param =>
    (node.argument? param.name).map fun child => (path ++ [param.name], child)

/-- The entries of a node and of no more than `fuel` levels from it down. -/
def entriesWithin (scenario : Scenario) (registry : Registry) :
    (fuel : Nat) → Path → NodeId → Except InterchangeError (List Entry)
  | 0, _, id => .error (.unknownNode id)
  | fuel + 1, path, id =>
    match scenario.forest.get? id with
    | none => .error (.unknownNode id)
    | some node =>
      match registry.get? node.variant with
      | none => .error (.rejected 0 (.unknownVariant node.variant))
      | some variant => do
        let own ← scenario.ownEntries path node
        let below ← (declaredChildren variant path node).mapM fun (path, child) =>
          scenario.entriesWithin registry fuel path child
        return own ++ below.flatten

/-- The entries of a node and of everything below it. -/
def entries (scenario : Scenario) (registry : Registry) (id : NodeId) :
    Except InterchangeError (List Entry) :=
  scenario.entriesWithin registry (scenario.forest.size + 1) [] id

/-- The lines of a node and of everything below it. -/
def encode (scenario : Scenario) (registry : Registry) (id : NodeId) :
    Except InterchangeError (List String) := do
  return (← scenario.entries registry id).map Entry.text

end Scenario

end Rulebook
