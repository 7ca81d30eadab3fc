import Rulebook.Scenario
import Rulebook.Snapshot.Format

/-!
# Snapshots

A scenario as bytes: every node with its number, the triggers, the regions and
the numbers of the next of each. Fields come in the order of their declaration
and alternatives are numbered in theirs. The nodes come in any order, which says
nothing. Bytes from elsewhere are trusted in nothing that the types demand: keys
are checked, texts are checked, and a number that stands for no alternative ends
the reading.
-/

namespace Rulebook

open Format

namespace Snapshot

/-- A node number. -/
def nodeId : Format NodeId := nat32.map .mk NodeId.raw

/-- A trigger number. -/
def triggerId : Format TriggerId := nat32.map .mk TriggerId.raw

/-- A region number. -/
def regionId : Format RegionId := nat32.map .mk RegionId.raw

/-- An integer of a script, in two's complement. -/
def integer : Format Int64 :=
  nat64.map (fun n => (UInt64.ofNat n).toInt64) (fun n => n.toUInt64.toNat)

/-- A resource key, as its text. -/
def key : Format ResourceKey := text.convert ResourceKey.parse? ResourceKey.text

/-- A literal. -/
def literal : Format Literal :=
  branches
    [.of integer .int fun | .int value => some value | _ => none,
     .of text .text fun | .text value => some value | _ => none,
     .of bool .bool fun | .bool value => some value | _ => none,
     .of (among Comparator.all) .comparator fun | .comparator value => some value | _ => none,
     .of (among DamageType.all) .damageType fun | .damageType value => some value | _ => none,
     .of key .block fun | .block key => some key | _ => none,
     .of key .item fun | .item key => some key | _ => none,
     .of regionId .region fun | .region id => some id | _ => none]

/-- Who holds a node. -/
def owner : Format Owner :=
  branches
    [.of nothing (fun _ => .detached) fun | .detached => some () | _ => none,
     .of nodeId .argument fun | .argument parent => some parent | _ => none,
     .of triggerId .trigger fun | .trigger trigger => some trigger | _ => none]

/-- A filled slot. -/
def binding : Format Binding :=
  (text.pair nodeId).map (fun (param, child) => ⟨param, child⟩)
    (fun binding => (binding.param, binding.child))

/-- A node. -/
def node : Format Node :=
  (nodeId.pair <| text.pair <| (among NodeKind.all).pair <| (among ValueType.all).pair <|
    (option literal).pair <| (list binding).pair owner).map
    (fun (id, variant, kind, result, literal, arguments, owner) =>
      ⟨id, variant, kind, result, literal, arguments, owner⟩)
    (fun node =>
      (node.id, node.variant, node.kind, node.result, node.literal, node.arguments, node.owner))

/-- A forest, whose nodes are written in some order. If a number occurs twice among them, the
later one counts. -/
def forest (order : Forest → List (NodeId × Node)) : Format Forest :=
  ((list (nodeId.pair node)).pair nat32).map
    (fun (rows, nextId) => ⟨.ofList rows, nextId⟩)
    (fun forest => (order forest, forest.nextId))

/-- The nodes of a forest in the order of their numbers. -/
def byNumber (forest : Forest) : List (NodeId × Node) := forest.nodes.toList

/-- A trigger. -/
def trigger : Format Trigger :=
  (triggerId.pair <| text.pair <| bool.pair <| (list nodeId).pair <| (list nodeId).pair
    (list nodeId)).map
    (fun (id, name, enabled, events, conditions, actions) =>
      ⟨id, name, enabled, events, conditions, actions⟩)
    (fun trigger =>
      (trigger.id, trigger.name, trigger.enabled, trigger.events, trigger.conditions,
        trigger.actions))

/-- A coordinate, as its bits. -/
def coordinate : Format Coordinate :=
  nat64.map (fun n => ⟨UInt64.ofNat n⟩) (fun c => c.bits.toNat)

/-- A point. -/
def point : Format Point :=
  (coordinate.pair <| coordinate.pair coordinate).map (fun (x, y, z) => ⟨x, y, z⟩)
    (fun p => (p.x, p.y, p.z))

/-- A box. -/
def bounds : Format Bounds :=
  (point.pair point).map (fun (low, high) => ⟨low, high⟩) (fun box => (box.low, box.high))

/-- A stable identifier, as its sixteen bytes after their number. -/
def uuid : Format Uuid :=
  bytes.convert (fun bytes => if bytes.length = 16 then some (Uuid.ofBytes bytes) else none)
    Uuid.bytes

/-- A region. -/
def region : Format Region :=
  (regionId.pair <| text.pair <| (option uuid).pair bounds).map
    (fun (id, name, stableId, bounds) => ⟨id, name, stableId, bounds⟩)
    (fun region => (region.id, region.name, region.stableId, region.bounds))

/-- A scenario, whose nodes are written in some order. -/
def scenario (order : Forest → List (NodeId × Node)) : Format Scenario :=
  (text.pair <| (forest order).pair <| (list trigger).pair <| (list region).pair <|
    nat32.pair nat32).map
    (fun (name, forest, triggers, regions, nextTrigger, nextRegion) =>
      ⟨name, forest, triggers, regions, nextTrigger, nextRegion⟩)
    (fun scenario =>
      (scenario.name, scenario.forest, scenario.triggers, scenario.regions,
        scenario.nextTrigger, scenario.nextRegion))

end Snapshot

namespace Scenario

/-- The scenario as bytes, its nodes in some order. -/
def toBytesBy (order : Forest → List (NodeId × Node)) (scenario : Scenario) : List UInt8 :=
  (Snapshot.scenario order).write scenario

/-- The scenario as bytes. -/
def toBytes (scenario : Scenario) : List UInt8 := scenario.toBytesBy Snapshot.byNumber

/-- The scenario of some bytes; what follows it is ignored. -/
def ofBytes? (bytes : List UInt8) : Option Scenario :=
  (Snapshot.scenario Snapshot.byNumber).decode bytes

end Scenario

end Rulebook
