import Rulebook.Id
import Rulebook.Integer
import Rulebook.ResourceKey
import Rulebook.Vocabulary

/-!
# Values

What evaluating a node yields: one value of the node's type.
-/

namespace Rulebook

/-- A value of one of the types. -/
inductive Value where
  | int (value : Int64)
  | text (value : String)
  | bool (value : Bool)
  | comparator (value : Comparator)
  | damageType (value : DamageType)
  | entity (actor : ActorId)
  | block (key : ResourceKey)
  | item (key : ResourceKey)
  | region (id : RegionId)
  /-- What actions and events yield. -/
  | unit
deriving DecidableEq

namespace Value

/-- The type of a value. -/
def type : Value → ValueType
  | int _ => .int
  | text _ => .text
  | bool _ => .bool
  | comparator _ => .comparator
  | damageType _ => .damageType
  | entity _ => .entity
  | block _ => .block
  | item _ => .item
  | region _ => .region
  | unit => .unit

/-- The integer, if the value is one. -/
def int? : Value → Option Int64
  | int value => some value
  | _ => none

/-- The text, if the value is one. -/
def text? : Value → Option String
  | text value => some value
  | _ => none

/-- The boolean, if the value is one. -/
def bool? : Value → Option Bool
  | bool value => some value
  | _ => none

/-- The comparison operator, if the value is one. -/
def comparator? : Value → Option Comparator
  | comparator value => some value
  | _ => none

/-- The cause of damage, if the value is one. -/
def damageType? : Value → Option DamageType
  | damageType value => some value
  | _ => none

/-- The actor, if the value is one. -/
def entity? : Value → Option ActorId
  | entity actor => some actor
  | _ => none

/-- The block type, if the value is one. -/
def block? : Value → Option ResourceKey
  | block key => some key
  | _ => none

/-- The item type, if the value is one. -/
def item? : Value → Option ResourceKey
  | item key => some key
  | _ => none

/-- The region, if the value is one. -/
def region? : Value → Option RegionId
  | region id => some id
  | _ => none

/-- A value in words. -/
def display : Value → String
  | int value => integerText value
  | text value => value
  | bool value => if value then "true" else "false"
  | comparator value => value.symbol
  | damageType value => value.name
  | entity actor => actor.text
  | block key | item key => key.text
  | region id => id.text
  | unit => "()"

end Value

end Rulebook
