import Rulebook.Json.Vocabulary
import Rulebook.Scenario
import Rulebook.Text.Decimal

/-!
# Scenarios in JSON

A scenario as a record of its fields. Nodes stand in an object under their
numbers; a coordinate that is not a finite number is written as null and cannot
be read back.
-/

namespace Rulebook

/-- A coordinate, as a number if it is finite. -/
def Coordinate.toJson (c : Coordinate) : Json := if c.isFinite then .float c else .null

/-- A point, as the list of its coordinates. -/
def Point.toJson (p : Point) : Json := .list [p.x.toJson, p.y.toJson, p.z.toJson]

/-- Reads a point. -/
def Point.ofJson? (json : Json) : Option Point := do
  let [x, y, z] ← Json.listOf? Json.coordinate? json | none
  return ⟨x, y, z⟩

/-- A box, as a record. -/
def Bounds.toJson (box : Bounds) : Json :=
  .object [("min", box.low.toJson), ("max", box.high.toJson)]

/-- Reads a box. -/
def Bounds.ofJson? (json : Json) : Option Bounds := do
  let [low, high] ← json.record? ["min", "max"] | none
  return ⟨← Json.required? Point.ofJson? low, ← Json.required? Point.ofJson? high⟩

/-- A stable identifier, as its text. -/
def Uuid.toJson (id : Uuid) : Json := .text id.text

/-- Reads a stable identifier. -/
def Uuid.ofJson? (json : Json) : Option Uuid := json.text?.bind parse?

/-- A region, as a record. -/
def Region.toJson (region : Region) : Json :=
  .object [("id", region.id.toJson), ("name", .text region.name),
    ("stable_id", .option Uuid.toJson region.stableId), ("bounds", region.bounds.toJson)]

/-- Reads a region. -/
def Region.ofJson? (json : Json) : Option Region := do
  let [id, name, stableId, bounds] ← json.record? ["id", "name", "stable_id", "bounds"] | none
  return ⟨← Json.required? RegionId.ofJson? id, ← Json.required? Json.text? name,
    ← Json.optional? Uuid.ofJson? stableId, ← Json.required? Bounds.ofJson? bounds⟩

/-- Who holds a node. -/
def Owner.toJson : Owner → Json
  | detached => .text "Detached"
  | argument parent => .tagged "Argument" parent.toJson
  | trigger id => .tagged "Trigger" id.toJson

/-- Reads who holds a node. -/
def Owner.ofJson? (json : Json) : Option Owner := do
  match ← json.alternative? with
  | ("Detached", none) | ("Detached", some .null) => some detached
  | ("Argument", some payload) => (NodeId.ofJson? payload).map argument
  | ("Trigger", some payload) => (TriggerId.ofJson? payload).map trigger
  | _ => none

/-- A filled slot, as a record. -/
def Binding.toJson (binding : Binding) : Json :=
  .object [("param", .text binding.param), ("child", binding.child.toJson)]

/-- Reads a filled slot. -/
def Binding.ofJson? (json : Json) : Option Binding := do
  let [param, child] ← json.record? ["param", "child"] | none
  return ⟨← Json.required? Json.text? param, ← Json.required? NodeId.ofJson? child⟩

/-- A node, as a record. -/
def Node.toJson (node : Node) : Json :=
  .object [("id", node.id.toJson), ("variant", .text node.variant), ("kind", node.kind.toJson),
    ("result", node.result.toJson), ("literal", .option Literal.toJson node.literal),
    ("arguments", .listOf Binding.toJson node.arguments), ("owner", node.owner.toJson)]

/-- Reads a node. -/
def Node.ofJson? (json : Json) : Option Node := do
  let [id, variant, kind, result, literal, arguments, owner] ←
    json.record? ["id", "variant", "kind", "result", "literal", "arguments", "owner"] | none
  return ⟨← Json.required? NodeId.ofJson? id, ← Json.required? Json.text? variant,
    ← Json.required? NodeKind.ofJson? kind, ← Json.required? ValueType.ofJson? result,
    ← Json.optional? Literal.ofJson? literal,
    ← Json.required? (Json.listOf? Binding.ofJson?) arguments,
    ← Json.required? Owner.ofJson? owner⟩

/-- Reads the number under which a node stands: decimal without sign or leading zeros. -/
def NodeId.ofKey? (key : String) : Option NodeId := do
  let raw ← Text.digits? key.toList
  if raw < limit32 ∧ toString raw = key then some ⟨raw⟩ else none

/-- A forest, as a record. -/
def Forest.toJson (forest : Forest) : Json :=
  .object
    [("nodes", .object (forest.nodes.toList.map fun (id, node) => (toString id.raw, node.toJson))),
     ("next_id", .nat forest.nextId)]

/-- Reads the nodes of a forest. -/
def Forest.nodesOfJson? (json : Json) : Option (Std.ExtTreeMap NodeId Node) := do
  let rows ← (← json.object?).mapM fun (key, node) => do
    return (← NodeId.ofKey? key, ← Node.ofJson? node)
  return .ofList rows

/-- Reads a forest. -/
def Forest.ofJson? (json : Json) : Option Forest := do
  let [nodes, nextId] ← json.record? ["nodes", "next_id"] | none
  return ⟨← Json.required? nodesOfJson? nodes, ← Json.required? Json.nat32? nextId⟩

/-- A trigger, as a record. -/
def Trigger.toJson (trigger : Trigger) : Json :=
  .object [("id", trigger.id.toJson), ("name", .text trigger.name),
    ("enabled", .bool trigger.enabled), ("events", .listOf NodeId.toJson trigger.events),
    ("conditions", .listOf NodeId.toJson trigger.conditions),
    ("actions", .listOf NodeId.toJson trigger.actions)]

/-- Reads a trigger. -/
def Trigger.ofJson? (json : Json) : Option Trigger := do
  let [id, name, enabled, events, conditions, actions] ←
    json.record? ["id", "name", "enabled", "events", "conditions", "actions"] | none
  let roots := Json.required? (Json.listOf? NodeId.ofJson?)
  return ⟨← Json.required? TriggerId.ofJson? id, ← Json.required? Json.text? name,
    ← Json.required? Json.bool? enabled, ← roots events, ← roots conditions, ← roots actions⟩

/-- A scenario, as a record. -/
def Scenario.toJson (scenario : Scenario) : Json :=
  .object [("name", .text scenario.name), ("nodes", scenario.forest.toJson),
    ("triggers", .listOf Trigger.toJson scenario.triggers),
    ("regions", .listOf Region.toJson scenario.regions),
    ("next_trigger", .nat scenario.nextTrigger), ("next_region", .nat scenario.nextRegion)]

/-- Reads a scenario. -/
def Scenario.ofJson? (json : Json) : Option Scenario := do
  let [name, nodes, triggers, regions, nextTrigger, nextRegion] ←
    json.record? ["name", "nodes", "triggers", "regions", "next_trigger", "next_region"] | none
  return ⟨← Json.required? Json.text? name, ← Json.required? Forest.ofJson? nodes,
    ← Json.required? (Json.listOf? Trigger.ofJson?) triggers,
    ← Json.required? (Json.listOf? Region.ofJson?) regions,
    ← Json.required? Json.nat32? nextTrigger, ← Json.required? Json.nat32? nextRegion⟩

end Rulebook
