import Rulebook.Config
import Rulebook.Json
import Rulebook.Literal
import Rulebook.NodeTree
import Rulebook.Occurrence
import Rulebook.Value

/-!
# The vocabulary in JSON

Literals, values, trees of nodes, occurrences and settings. Keys are checked as
they are read, and integers must fit.
-/

namespace Rulebook

/-- An operator, by name. -/
def Comparator.toJson (c : Comparator) : Json := .text c.name

/-- Reads an operator. -/
def Comparator.ofJson? : Json → Option Comparator := Json.named? all name

/-- A cause of damage, by name. -/
def DamageType.toJson (d : DamageType) : Json := .text d.name

/-- Reads a cause of damage. -/
def DamageType.ofJson? : Json → Option DamageType := Json.named? all name

/-- A type, by name. -/
def ValueType.toJson (type : ValueType) : Json := .text type.name

/-- Reads a type. -/
def ValueType.ofJson? : Json → Option ValueType := Json.named? all name

/-- A kind, by name. -/
def NodeKind.toJson (kind : NodeKind) : Json := .text kind.name

/-- Reads a kind. -/
def NodeKind.ofJson? : Json → Option NodeKind := Json.named? all name

/-- A kind of occurrence, by name. -/
def OccurrenceKind.toJson (kind : OccurrenceKind) : Json := .text kind.name

/-- Reads a kind of occurrence. -/
def OccurrenceKind.ofJson? : Json → Option OccurrenceKind := Json.named? all name

/-- A resource key, as its text. -/
def ResourceKey.toJson (key : ResourceKey) : Json := .text key.text

/-- Reads a resource key. -/
def ResourceKey.ofJson? (json : Json) : Option ResourceKey := json.text?.bind parse?

/-- A node number. -/
def NodeId.toJson (id : NodeId) : Json := .nat id.raw

/-- Reads a node number. -/
def NodeId.ofJson? (json : Json) : Option NodeId := json.nat32?.map .mk

/-- A trigger number. -/
def TriggerId.toJson (id : TriggerId) : Json := .nat id.raw

/-- Reads a trigger number. -/
def TriggerId.ofJson? (json : Json) : Option TriggerId := json.nat32?.map .mk

/-- A region number. -/
def RegionId.toJson (id : RegionId) : Json := .nat id.raw

/-- Reads a region number. -/
def RegionId.ofJson? (json : Json) : Option RegionId := json.nat32?.map .mk

/-- An actor number. -/
def ActorId.toJson (id : ActorId) : Json := .nat id.raw

/-- Reads an actor number. -/
def ActorId.ofJson? (json : Json) : Option ActorId := json.nat64?.map .mk

namespace Literal

/-- A literal, tagged by its type. -/
def toJson : Literal → Json
  | int value => .tagged "Int" (.int value.toInt)
  | text value => .tagged "Text" (.text value)
  | bool value => .tagged "Bool" (.bool value)
  | comparator value => .tagged "Comparator" value.toJson
  | damageType value => .tagged "DamageType" value.toJson
  | block key => .tagged "Block" key.toJson
  | item key => .tagged "Item" key.toJson
  | region id => .tagged "Region" id.toJson

/-- Reads a literal. -/
def ofJson? (json : Json) : Option Literal := do
  match ← json.alternative? with
  | ("Int", some payload) => payload.int64?.map int
  | ("Text", some payload) => payload.text?.map text
  | ("Bool", some payload) => payload.bool?.map bool
  | ("Comparator", some payload) => (Comparator.ofJson? payload).map comparator
  | ("DamageType", some payload) => (DamageType.ofJson? payload).map damageType
  | ("Block", some payload) => (ResourceKey.ofJson? payload).map block
  | ("Item", some payload) => (ResourceKey.ofJson? payload).map item
  | ("Region", some payload) => (RegionId.ofJson? payload).map region
  | _ => none

end Literal

namespace Value

/-- A value, tagged by its type. -/
def toJson : Value → Json
  | int value => .tagged "Int" (.int value.toInt)
  | text value => .tagged "Text" (.text value)
  | bool value => .tagged "Bool" (.bool value)
  | comparator value => .tagged "Comparator" value.toJson
  | damageType value => .tagged "DamageType" value.toJson
  | entity actor => .tagged "Entity" actor.toJson
  | block key => .tagged "Block" key.toJson
  | item key => .tagged "Item" key.toJson
  | region id => .tagged "Region" id.toJson
  | unit => .text "Unit"

/-- Reads a value. -/
def ofJson? (json : Json) : Option Value := do
  match ← json.alternative? with
  | ("Int", some payload) => payload.int64?.map int
  | ("Text", some payload) => payload.text?.map text
  | ("Bool", some payload) => payload.bool?.map bool
  | ("Comparator", some payload) => (Comparator.ofJson? payload).map comparator
  | ("DamageType", some payload) => (DamageType.ofJson? payload).map damageType
  | ("Entity", some payload) => (ActorId.ofJson? payload).map entity
  | ("Block", some payload) => (ResourceKey.ofJson? payload).map block
  | ("Item", some payload) => (ResourceKey.ofJson? payload).map item
  | ("Region", some payload) => (RegionId.ofJson? payload).map region
  | ("Unit", none) | ("Unit", some .null) => some unit
  | _ => none

end Value

namespace Occurrence

/-- An occurrence, tagged by its kind. -/
def toJson : Occurrence → Json
  | blockDestroyed instigator cause damage destroyed =>
    .tagged "BlockDestroyed" (.object
      [("instigator", .option ActorId.toJson instigator),
       ("direct_cause", .option ActorId.toJson cause),
       ("damage_type", damage.toJson), ("destroyed", destroyed.toJson)])
  | playerSpawned player => .tagged "PlayerSpawned" (.object [("entity", player.toJson)])
  | playerRespawned player => .tagged "PlayerRespawned" (.object [("entity", player.toJson)])
  | regionEntered player region =>
    .tagged "RegionEntered" (.object [("entity", player.toJson), ("region", region.toJson)])
  | regionLeft player region =>
    .tagged "RegionLeft" (.object [("entity", player.toJson), ("region", region.toJson)])

/-- Reads the player of an occurrence. -/
def playerField? (fields : List (String × Json)) : Option ActorId :=
  Json.required? ActorId.ofJson? (fields.lookup "entity")

/-- Reads the region of an occurrence. -/
def regionField? (fields : List (String × Json)) : Option RegionId :=
  Json.required? RegionId.ofJson? (fields.lookup "region")

/-- Reads an occurrence. What it carries must be an object. -/
def ofJson? (json : Json) : Option Occurrence := do
  let (kind, payload) ← json.alternative?
  let fields ← (← payload).object?
  match kind with
  | "BlockDestroyed" =>
    return blockDestroyed
      (← Json.optional? ActorId.ofJson? (fields.lookup "instigator"))
      (← Json.optional? ActorId.ofJson? (fields.lookup "direct_cause"))
      (← Json.required? DamageType.ofJson? (fields.lookup "damage_type"))
      (← Json.required? ResourceKey.ofJson? (fields.lookup "destroyed"))
  | "PlayerSpawned" => return playerSpawned (← playerField? fields)
  | "PlayerRespawned" => return playerRespawned (← playerField? fields)
  | "RegionEntered" => return regionEntered (← playerField? fields) (← regionField? fields)
  | "RegionLeft" => return regionLeft (← playerField? fields) (← regionField? fields)
  | _ => none

end Occurrence

namespace NodeTree

mutual

/-- A tree, as a record. -/
def toJson : NodeTree → Json
  | ⟨variant, literal, arguments⟩ =>
    .object [("variant", .text variant), ("literal", .option Literal.toJson literal),
      ("arguments", .object (argumentsToJson arguments))]

/-- The trees in the slots, under the names of these. -/
def argumentsToJson : List (String × NodeTree) → List (String × Json)
  | [] => []
  | (param, child) :: rest => (param, child.toJson) :: argumentsToJson rest

end

/-- Reads a tree no more than `fuel` levels deep. -/
def ofJsonWithin? : (fuel : Nat) → Json → Option NodeTree
  | 0, _ => none
  | fuel + 1, json => do
    let [variant, literal, arguments] ← json.record? ["variant", "literal", "arguments"] | none
    let filled ← (← Json.required? Json.object? arguments).mapM fun (param, child) => do
      return (param, ← ofJsonWithin? fuel child)
    return ⟨← Json.required? Json.text? variant, ← Json.optional? Literal.ofJson? literal,
      slots filled⟩

/-- Reads a tree. -/
def ofJson? (json : Json) : Option NodeTree := ofJsonWithin? json.size json

end NodeTree

namespace Config

/-- Settings, as a record. -/
def toJson (config : Config) : Json :=
  .object [("seed", .option (fun seed => .nat seed.toNat) config.seed),
    ("max_depth", .nat config.maxDepth), ("log_condition_results", .bool config.logConditions)]

/-- The fields of settings. A list may stop early. -/
def fields? : Json → Option (Option Json × Option Json × Option Json)
  | .object fields =>
    some (fields.lookup "seed", fields.lookup "max_depth", fields.lookup "log_condition_results")
  | .list values =>
    if values.length ≤ 3 then some (values[0]?, values[1]?, values[2]?) else none
  | _ => none

/-- Reads settings, of which any may be missing. -/
def ofJson? (json : Json) : Option Config := do
  let (seed, depth, logging) ← fields? json
  let seed ← Json.optional? Json.nat64? seed
  return ⟨seed.map UInt64.ofNat, ← Json.defaulted? Json.nat64? defaultMaxDepth depth,
    ← Json.defaulted? Json.bool? false logging⟩

end Config

end Rulebook
