import Rulebook.Registry
import Rulebook.Scenario
import Rulebook.Template

/-!
# Nodes in words

How an editor shows a node: a literal by its text, everything else by the
template of its variant with the slots filled in. An unset slot shows its
default, or its name between angle brackets if it has none. What lies too deep
shows as an ellipsis.
-/

namespace Rulebook

namespace Scenario

/-- How many levels of nodes are shown. -/
def shownDepth : Nat := 64

/-- A literal in words. -/
def displayLiteral (scenario : Scenario) : Literal → String
  | .int value => integerText value
  | .text value => "\"" ++ value ++ "\""
  | .bool value => if value then "true" else "false"
  | .comparator value => value.symbol
  | .damageType value => value.label
  | .block key | .item key => key.text
  | .region id =>
    match scenario.region? id with
    | some region => region.name
    | none => "<missing " ++ id.text ++ ">"

/-- A part of a template in words, where `showNode` shows the nodes in the slots. -/
def displayPart (scenario : Scenario) (showNode : NodeId → String) (variant : Variant)
    (node : Node) : TemplatePart → String
  | .verbatim text => String.ofList text
  | .braced chars =>
    let name := String.ofList chars
    match variant.param? name with
    | none => "\x7b" ++ name ++ "\x7d"
    | some param =>
      match node.argument? name with
      | some child => showNode child
      | none =>
        match param.fallback with
        | some literal => scenario.displayLiteral literal
        | none => "<" ++ name ++ ">"

/-- A node in words, no more than `fuel` levels deep. -/
def displayWithin (registry : Registry) (scenario : Scenario) : (fuel : Nat) → NodeId → String
  | fuel, id =>
    match scenario.forest.get? id with
    | none => "<missing " ++ id.text ++ ">"
    | some node =>
      match node.literal with
      | some literal => scenario.displayLiteral literal
      | none =>
        match fuel with
        | 0 => "..."
        | fuel + 1 =>
          match registry.get? node.variant with
          | none => node.variant
          | some variant =>
            if variant.template.isEmpty then variant.id
            else
              String.join ((TemplatePart.parse variant.template.toList).map
                (scenario.displayPart (scenario.displayWithin registry fuel) variant node))

/-- A node in words. -/
def display (scenario : Scenario) (registry : Registry) (id : NodeId) : String :=
  displayWithin registry scenario shownDepth id

end Scenario

end Rulebook
