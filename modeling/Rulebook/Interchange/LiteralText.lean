import Rulebook.Integer
import Rulebook.Interchange.Error
import Rulebook.Scenario
import Rulebook.Services
import Rulebook.Text.Cut
import Rulebook.Text.Decimal
import Rulebook.Text.Escape

/-!
# Literals in interchange texts

Integers are written in decimal, texts with their line ends escaped, operators
and causes of damage by name, blocks and items by key. A region is written by
its stable identifier, so that another scenario can find it, or by its number
if it has none. What a text refers to must exist where it is read.
-/

namespace Rulebook

/-- Why a literal could not be read. -/
inductive LiteralFault where
  /-- The text is no literal of the type. -/
  | invalid
  /-- The text refers to something that does not exist. -/
  | unresolved
deriving DecidableEq, Repr

namespace LiteralText

/-- What the text of a region with a stable identifier begins with. -/
def stableMark : List Char := "uuid:".toList

/-- What the text of any other region begins with. -/
def localMark : List Char := "local:".toList

/-- How a region is written. -/
def regionText (region : Region) : List Char :=
  match region.stableId with
  | some stableId => stableMark ++ stableId.text.toList
  | none => localMark ++ (toString region.id.raw).toList

/-- How a boolean is written. -/
def boolText (value : Bool) : List Char := if value then "True".toList else "False".toList

/-- How a literal is written. A region must still exist. -/
def write (scenario : Scenario) : Literal → Except InterchangeError (List Char)
  | .int value => .ok (integerText value).toList
  | .text value => .ok (Text.escape value.toList)
  | .bool value => .ok (boolText value)
  | .comparator value => .ok value.name.toList
  | .damageType value => .ok value.name.toList
  | .block key | .item key => .ok key.text.toList
  | .region id =>
    match scenario.region? id with
    | some region => .ok (regionText region)
    | none => .error (.unresolvedReference 0 id.text)

/-- Finds the region that a text names. -/
def readRegion (scenario : Scenario) (text : List Char) : Except LiteralFault RegionId := do
  let found ← match Text.dropStart? stableMark text with
    | some rest =>
      match Uuid.parse? (String.ofList rest) with
      | some stableId => pure (scenario.regionOfStableId? stableId)
      | none => throw .invalid
    | none =>
      match Text.dropStart? localMark text with
      | some rest =>
        match Text.natBelow? limit32 rest with
        | some raw => pure (scenario.region? ⟨raw⟩)
        | none => throw .invalid
      | none => throw .invalid
  match found with
  | some region => return region.id
  | none => throw .unresolved

/-- The result of reading, or the complaint that the text is no literal. -/
def orInvalid {α : Type} : Option α → Except LiteralFault α
  | some a => .ok a
  | none => .error .invalid

/-- Reads a literal of a type. -/
def read {σ : Type} [Services σ] (scenario : Scenario) (services : σ) (type : ValueType)
    (text : List Char) : Except LiteralFault Literal :=
  match type with
  | .int => return .int (← orInvalid (Text.int64? text))
  | .text => return .text (String.ofList (← orInvalid (Text.unescape? text)))
  | .bool =>
    if text = boolText true then .ok (.bool true)
    else if text = boolText false then .ok (.bool false)
    else .error .invalid
  | .comparator => return .comparator (← orInvalid (Comparator.ofName? (String.ofList text)))
  | .damageType => return .damageType (← orInvalid (DamageType.ofName? (String.ofList text)))
  | .block => do
    let key ← orInvalid (ResourceKey.parse? (String.ofList text))
    unless Services.hasBlock services key do
      throw .unresolved
    return .block key
  | .item => do
    let key ← orInvalid (ResourceKey.parse? (String.ofList text))
    unless Services.hasItem services key do
      throw .unresolved
    return .item key
  | .region => return .region (← readRegion scenario text)
  | .entity | .unit => .error .invalid

end LiteralText

end Rulebook
