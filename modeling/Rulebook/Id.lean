import Std.Data.ExtTreeMap

/-!
# Identifiers

Nodes, triggers and regions are numbered within their scenario, in the order
in which they are made. Actors are numbered by the host. Variants, the sorts of
node that there are, go by name.

Nodes and actors are also keys of finite maps, where they stand in the order of
their numbers.
-/

namespace Rulebook

/-- The number of a node within its scenario. -/
structure NodeId where
  raw : Nat
deriving DecidableEq, Repr, Inhabited

/-- The number of a trigger within its scenario. -/
structure TriggerId where
  raw : Nat
deriving DecidableEq, Repr, Inhabited

/-- The number of a region within its scenario. -/
structure RegionId where
  raw : Nat
deriving DecidableEq, Repr, Inhabited

/-- The number of a live simulation object, usually a player. It is meaningful only
while the object exists and is never written into a script. -/
structure ActorId where
  raw : Nat
deriving DecidableEq, Repr, Inhabited

instance : Ord NodeId := ⟨compareOn NodeId.raw⟩

instance : Std.TransOrd NodeId := inferInstanceAs (Std.TransCmp (compareOn NodeId.raw))

instance : Std.LawfulEqOrd NodeId where
  eq_of_compare {a b} h := by
    cases a; cases b
    exact congrArg NodeId.mk (Std.LawfulEqOrd.eq_of_compare h)

instance : Ord ActorId := ⟨compareOn ActorId.raw⟩

instance : Std.TransOrd ActorId := inferInstanceAs (Std.TransCmp (compareOn ActorId.raw))

instance : Std.LawfulEqOrd ActorId where
  eq_of_compare {a b} h := by
    cases a; cases b
    exact congrArg ActorId.mk (Std.LawfulEqOrd.eq_of_compare h)

/-- The name of a variant, such as `IntCompare`. -/
abbrev VariantId := String

/-- Whether the character may begin a name. -/
def isNameStart (c : Char) : Bool := c.isAlpha || c == '_'

/-- Whether the character may continue a name. -/
def isNameChar (c : Char) : Bool := c.isAlphanum || c == '_'

/-- Whether the text is a name: ASCII letters, digits and underscores, no digit first.
Variants and parameters have such names, so that they can be written unescaped. -/
def isName : List Char → Bool
  | [] => false
  | c :: rest => isNameStart c && rest.all isNameChar

/-- How a node is named in a message. -/
def NodeId.text (id : NodeId) : String := "Node(" ++ toString id.raw ++ ")"

/-- How a trigger is named in a message. -/
def TriggerId.text (id : TriggerId) : String := "Trigger(" ++ toString id.raw ++ ")"

/-- How a region is named in a message. -/
def RegionId.text (id : RegionId) : String := "Region(" ++ toString id.raw ++ ")"

/-- How an actor is named in a message. -/
def ActorId.text (id : ActorId) : String := "Actor(" ++ toString id.raw ++ ")"

end Rulebook
