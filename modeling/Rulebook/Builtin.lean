import Rulebook.Builtin.Action
import Rulebook.Builtin.Conditional
import Rulebook.Builtin.Event
import Rulebook.Builtin.Expression
import Rulebook.Builtin.Value
import Rulebook.Registry

/-!
# Built-in variants

The variants that every scenario can use. A host may register more of its own,
before or after these.
-/

namespace Rulebook

namespace Builtin

/-- All built-in variants, in the order in which they are registered. -/
def variants : List Variant := values ++ expressions ++ conditionals ++ actions ++ events

end Builtin

namespace Registry

/-- Adds the built-in variants whose names are still free. -/
def addBuiltins (registry : Registry) : Registry := registry.offerAll Builtin.variants

/-- The registry of the built-in variants. -/
def builtin : Registry := empty.addBuiltins

end Registry

end Rulebook
