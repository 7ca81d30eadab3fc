import Rulebook.Geometry.Decimal
import Rulebook.Integer

/-!
# JSON values

The values of JSON texts. Integers and other numbers are told apart, because a
number that must be an integer may not be written with a fraction or an
exponent.

The readers below follow one set of conventions. A record is an object, whose
unknown fields are ignored, or a list of all its fields in order. An optional
field may be null or missing. An alternative is an object with one field, or
the bare name of the alternative if it carries nothing.
-/

namespace Rulebook

/-- A JSON value. -/
inductive Json where
  | null
  | bool (value : Bool)
  | int (value : Int)
  | float (value : Coordinate)
  | text (value : String)
  | list (values : List Json)
  | object (fields : List (String × Json))

namespace Json

/-! ## Making values -/

/-- A number that is not negative. -/
def nat (n : Nat) : Json := int n

/-- A value that may be absent. -/
def option {α : Type} (toJson : α → Json) : Option α → Json
  | none => null
  | some a => toJson a

/-- A list of values. -/
def listOf {α : Type} (toJson : α → Json) (values : List α) : Json := list (values.map toJson)

/-- An alternative with what it carries. -/
def tagged (name : String) (payload : Json) : Json := object [(name, payload)]

/-! ## Reading values -/

mutual

/-- The number of values within a value. -/
def size : Json → Nat
  | list values => 1 + sizes values
  | object fields => 1 + fieldSizes fields
  | _ => 1

/-- The number of values within the values of a list. -/
def sizes : List Json → Nat
  | [] => 0
  | value :: rest => value.size + sizes rest

/-- The number of values within the fields of an object. -/
def fieldSizes : List (String × Json) → Nat
  | [] => 0
  | (_, value) :: rest => value.size + fieldSizes rest

end

/-- A text. -/
def text? : Json → Option String
  | text value => some value
  | _ => none

/-- A boolean. -/
def bool? : Json → Option Bool
  | bool value => some value
  | _ => none

/-- An integer that is not negative and below a bound. -/
def natBelow? (bound : Nat) : Json → Option Nat
  | int value => if 0 ≤ value ∧ value < bound then some value.toNat else none
  | _ => none

/-- A number of 32 bits. -/
def nat32? : Json → Option Nat := natBelow? limit32

/-- A number of 64 bits. -/
def nat64? : Json → Option Nat := natBelow? limit64

/-- An integer of a script. -/
def int64? : Json → Option Int64
  | int value =>
    if Int64.minValue.toInt ≤ value ∧ value ≤ Int64.maxValue.toInt then some (Int64.ofInt value)
    else none
  | _ => none

/-- Any number. -/
def coordinate? : Json → Option Coordinate
  | int value => some (.ofInt value)
  | float value => some value
  | _ => none

/-- A value that may be null. -/
def option? {α : Type} (ofJson? : Json → Option α) : Json → Option (Option α)
  | null => some none
  | json => (ofJson? json).map some

/-- The values of a list. -/
def list? : Json → Option (List Json)
  | list values => some values
  | _ => none

/-- A list of values. -/
def listOf? {α : Type} (ofJson? : Json → Option α) (json : Json) : Option (List α) := do
  (← json.list?).mapM ofJson?

/-- The fields of an object. -/
def object? : Json → Option (List (String × Json))
  | object fields => some fields
  | _ => none

/-- The fields of a record, in the order of their names. A missing one is absent; a list must
have them all. -/
def record? (names : List String) : Json → Option (List (Option Json))
  | object fields => some (names.map fun name => fields.lookup name)
  | list values => if values.length = names.length then some (values.map some) else none
  | _ => none

/-- A field that must be there. -/
def required? {α : Type} (ofJson? : Json → Option α) (field : Option Json) : Option α :=
  field.bind ofJson?

/-- A field that may be null or missing. -/
def optional? {α : Type} (ofJson? : Json → Option α) : Option Json → Option (Option α)
  | none => some none
  | some json => option? ofJson? json

/-- A field with a default, which stands in if the field is missing. -/
def defaulted? {α : Type} (ofJson? : Json → Option α) (default : α) : Option Json → Option α
  | none => some default
  | some json => ofJson? json

/-- The name of an alternative and what it carries. -/
def alternative? : Json → Option (String × Option Json)
  | text name => some (name, none)
  | object [(name, payload)] => some (name, some payload)
  | _ => none

/-- An alternative that carries nothing: one of several that have names. -/
def named? {α : Type} (all : List α) (name : α → String) (json : Json) : Option α := do
  match ← json.alternative? with
  | (tag, none) | (tag, some null) => all.find? fun a => name a == tag
  | _ => none

end Json

end Rulebook
