import Rulebook.Literal
import Rulebook.Occurrence
import Rulebook.Rejection
import Rulebook.Script

/-!
# Variants

A variant is a sort of node: what its parameters are, what it produces, how it
is evaluated and how it reads in an editor. A definition is sound when its
names are names, its defaults fit, and its kind, type, literal and occurrence
belong together; only sound definitions can be registered.
-/

namespace Rulebook

/-- A parameter of a variant. -/
structure Param where
  name : String
  /-- The type that a bound child must have. -/
  type : ValueType
  /-- What an unset slot stands for. A parameter without a default is required. -/
  fallback : Option Literal := none
deriving DecidableEq

/-- Whether the slot of the parameter must be bound. -/
def Param.isRequired (param : Param) : Bool := param.fallback.isNone

/-- The definition of a variant. -/
structure Variant where
  id : VariantId
  kind : NodeKind
  /-- The type of value that every node of the variant produces. -/
  result : ValueType
  /-- The parameters, in the order in which they are evaluated and written. -/
  params : List Param := []
  /-- The type of literal that a node carries, if it carries one. -/
  literal : Option ValueType := none
  /-- How a node produces its value. -/
  rule : Rule
  /-- The text of a node in an editor, with parameter names in braces. -/
  template : String := ""
  /-- The kind of occurrence that an event variant listens for. -/
  listensTo : Option OccurrenceKind := none

namespace Variant

/-- The parameter of a name. -/
def param? (variant : Variant) (name : String) : Option Param :=
  variant.params.find? fun param => param.name == name

/-- Whether a default has its parameter's type and refers to nothing outside the script. -/
def fallbackFits (type : ValueType) (literal : Literal) : Bool :=
  literal.type == type && !literal.isReference

/-- Checks the parameters that follow those named in `earlier`, in order. -/
def checkParams (id : VariantId) (earlier : List String) : List Param → Except Rejection Unit
  | [] => .ok ()
  | param :: rest => do
    if earlier.contains param.name || !isName param.name.toList then
      throw (.invalidParameterName id param.name)
    if let some literal := param.fallback then
      unless fallbackFits param.type literal do
        throw (.literalMismatch id (some param.type) (some literal.type))
    checkParams id (earlier ++ [param.name]) rest

/-- Whether the literal of a variant suits its kind: value variants carry a literal of their
own type and have no parameters, and all others carry none. -/
def literalFits (variant : Variant) : Bool :=
  match variant.kind with
  | .value => variant.literal == some variant.result && variant.params.isEmpty
  | _ => variant.literal.isNone

/-- Whether the type of a variant, and what it listens for, suit its kind. -/
def kindFits (variant : Variant) : Bool :=
  match variant.kind with
  | .event => variant.listensTo.isSome && variant.result == .unit
  | .action => variant.listensTo.isNone && variant.result == .unit
  | .conditional => variant.listensTo.isNone && variant.result == .bool
  | .value | .expression => variant.listensTo.isNone && variant.result != .unit

/-- Checks a definition: its name, its parameters, its literal, its kind. -/
def check (variant : Variant) : Except Rejection Unit := do
  unless isName variant.id.toList do
    throw (.unknownVariant variant.id)
  checkParams variant.id [] variant.params
  unless variant.literalFits do
    let expected := if variant.kind = .value then some variant.result else none
    throw (.literalMismatch variant.id expected variant.literal)
  unless variant.kindFits do
    throw (.wrongKind variant.id "a result type matching the variant kind" variant.kind)

end Variant

end Rulebook
