import Rulebook.Id
import Rulebook.ResourceKey
import Rulebook.Vocabulary

/-!
# Literals

What a value node carries. A block, item or region literal only refers to
something outside the script, which may stop existing.
-/

namespace Rulebook

/-- The constant of a value node or the default of a parameter. -/
inductive Literal where
  | int (value : Int64)
  | text (value : String)
  | bool (value : Bool)
  | comparator (value : Comparator)
  | damageType (value : DamageType)
  | block (key : ResourceKey)
  | item (key : ResourceKey)
  | region (id : RegionId)
deriving DecidableEq

namespace Literal

/-- The type of value that the literal stands for. -/
def type : Literal → ValueType
  | int _ => .int
  | text _ => .text
  | bool _ => .bool
  | comparator _ => .comparator
  | damageType _ => .damageType
  | block _ => .block
  | item _ => .item
  | region _ => .region

/-- Whether the literal refers to something outside the script. -/
def isReference : Literal → Bool
  | block _ | item _ | region _ => true
  | _ => false

/-- The literal that a draft of a value node starts from. References have none. -/
def neutral? : ValueType → Option Literal
  | .int => some (int 0)
  | .text => some (text "")
  | .bool => some (bool false)
  | .comparator => some (comparator .equal)
  | .damageType => some (damageType .generic)
  | .entity | .block | .item | .region | .unit => none

end Literal

end Rulebook
