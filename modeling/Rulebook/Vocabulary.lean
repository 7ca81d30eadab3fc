/-!
# The vocabulary of types

Every node of a script has a kind, its role, and a type, the sort of value it
produces. Two of the types are small closed lists that scripts name in full:
comparison operators and causes of damage.
-/

namespace Rulebook

/-- The role of a node. -/
inductive NodeKind where
  /-- Carries a literal. -/
  | value
  /-- Computes a value from its arguments or from the occurrence. -/
  | expression
  /-- Changes the world. -/
  | action
  /-- Names an occurrence that a trigger listens for. -/
  | event
  /-- Computes a boolean and may guard a trigger. -/
  | conditional
deriving DecidableEq, Repr

namespace NodeKind

/-- All kinds, in the order of their tags in a snapshot. -/
def all : List NodeKind := [value, expression, action, event, conditional]

/-- The name of a kind. -/
def name : NodeKind → String
  | value => "Value"
  | expression => "Expression"
  | action => "Action"
  | event => "Event"
  | conditional => "Conditional"

end NodeKind

/-- The sort of value that a node produces or a parameter takes. -/
inductive ValueType where
  | int
  | text
  | bool
  | comparator
  | damageType
  /-- A live simulation object. -/
  | entity
  | block
  | item
  | region
  /-- No value, the type of actions and events. -/
  | unit
deriving DecidableEq, Repr

namespace ValueType

/-- All types, in the order of their tags in a snapshot. -/
def all : List ValueType :=
  [int, text, bool, comparator, damageType, entity, block, item, region, unit]

/-- The name of a type. -/
def name : ValueType → String
  | int => "Int"
  | text => "Text"
  | bool => "Bool"
  | comparator => "Comparator"
  | damageType => "DamageType"
  | entity => "Entity"
  | block => "Block"
  | item => "Item"
  | region => "Region"
  | unit => "Unit"

/-- How a message names a type that may be absent. -/
def optionName : Option ValueType → String
  | none => "None"
  | some type => "Some(" ++ type.name ++ ")"

end ValueType

/-- A comparison operator. -/
inductive Comparator where
  | equal
  | notEqual
  | less
  | lessOrEqual
  | greater
  | greaterOrEqual
deriving DecidableEq, Repr

namespace Comparator

/-- All operators, in the order in which an editor offers them. -/
def all : List Comparator := [equal, notEqual, less, lessOrEqual, greater, greaterOrEqual]

/-- The sign of an operator. -/
def symbol : Comparator → String
  | equal => "="
  | notEqual => "!="
  | less => "<"
  | lessOrEqual => "<="
  | greater => ">"
  | greaterOrEqual => ">="

/-- The name of an operator. -/
def name : Comparator → String
  | equal => "Equal"
  | notEqual => "NotEqual"
  | less => "Less"
  | lessOrEqual => "LessOrEqual"
  | greater => "Greater"
  | greaterOrEqual => "GreaterOrEqual"

/-- The operator of a name. -/
def ofName? (name : String) : Option Comparator := all.find? fun c => c.name == name

/-- The operator of a sign. -/
def ofSymbol? (symbol : String) : Option Comparator := all.find? fun c => c.symbol == symbol

/-- Whether the operator holds between operands that stand in the given order. -/
def holds : Comparator → Ordering → Bool
  | equal, order => order.isEq
  | notEqual, order => order.isNe
  | less, order => order.isLT
  | lessOrEqual, order => order.isLE
  | greater, order => order.isGT
  | greaterOrEqual, order => order.isGE

/-- Compares two integers. -/
def holdsInt (c : Comparator) (left right : Int64) : Bool :=
  c.holds (compare left.toInt right.toInt)

/-- Compares two texts, character by character in the order of their code points. -/
def holdsText (c : Comparator) (left right : String) : Bool := c.holds (compare left right)

end Comparator

/-- A cause of damage. -/
inductive DamageType where
  | generic
  | melee
  | projectile
  | explosion
  | fall
  | fire
  | drowning
deriving DecidableEq, Repr

namespace DamageType

/-- All causes, in the order of their tags in a snapshot. -/
def all : List DamageType := [generic, melee, projectile, explosion, fall, fire, drowning]

/-- The name of a cause. -/
def name : DamageType → String
  | generic => "Generic"
  | melee => "Melee"
  | projectile => "Projectile"
  | explosion => "Explosion"
  | fall => "Fall"
  | fire => "Fire"
  | drowning => "Drowning"

/-- How an editor shows a cause: its name in lower case. -/
def label : DamageType → String
  | generic => "generic"
  | melee => "melee"
  | projectile => "projectile"
  | explosion => "explosion"
  | fall => "fall"
  | fire => "fire"
  | drowning => "drowning"

/-- The cause of a name. -/
def ofName? (name : String) : Option DamageType := all.find? fun d => d.name == name

end DamageType

end Rulebook
