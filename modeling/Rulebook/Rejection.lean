import Rulebook.Id
import Rulebook.Text.Quoted
import Rulebook.Uuid
import Rulebook.Vocabulary

/-!
# Rejections

Why a definition or an edit was refused.
-/

namespace Rulebook

/-- Why a definition or an edit was refused. -/
inductive Rejection where
  | unknownVariant (name : String)
  | duplicateVariant (variant : VariantId)
  | invalidParameterName (variant : VariantId) (param : String)
  | unknownParameter (variant : VariantId) (param : String)
  | missingParameter (variant : VariantId) (param : String)
  | argumentType (variant : VariantId) (param : String) (expected found : ValueType)
  | literalMismatch (variant : VariantId) (expected found : Option ValueType)
  | unknownNode (node : NodeId)
  | alreadyBound (node : NodeId)
  | cycle (node child : NodeId)
  | wrongKind (variant : VariantId) (expected : String) (found : NodeKind)
  | unknownTrigger (trigger : TriggerId)
  | unknownRegion (region : RegionId)
  | duplicateStableId (stableId : Uuid)
  | indexOutOfBounds (index length : Nat)
deriving DecidableEq, Repr

/-- A rejection in words. -/
def Rejection.message : Rejection → String
  | unknownVariant name => "unknown variant " ++ Text.quoted name
  | duplicateVariant variant => "variant " ++ variant ++ " is already registered"
  | invalidParameterName variant param =>
    "invalid parameter name " ++ Text.quoted param ++ " on " ++ variant
  | unknownParameter variant param => variant ++ " has no parameter " ++ Text.quoted param
  | missingParameter variant param => variant ++ " requires parameter " ++ Text.quoted param
  | argumentType variant param expected found =>
    variant ++ "." ++ param ++ " expects " ++ expected.name ++ ", got " ++ found.name
  | literalMismatch variant expected found =>
    variant ++ " expects literal " ++ ValueType.optionName expected ++ ", got "
      ++ ValueType.optionName found
  | unknownNode node => "unknown node " ++ node.text
  | alreadyBound node => node.text ++ " is already bound"
  | cycle node child =>
    "binding " ++ child.text ++ " under " ++ node.text ++ " would create a cycle"
  | wrongKind variant expected found =>
    variant ++ " is a " ++ found.name ++ " node, expected " ++ expected
  | unknownTrigger trigger => "unknown trigger " ++ trigger.text
  | unknownRegion region => "unknown region " ++ region.text
  | duplicateStableId stableId => "stable region id " ++ stableId.text ++ " is already in use"
  | indexOutOfBounds index length =>
    "index " ++ toString index ++ " out of bounds for list of length " ++ toString length

end Rulebook
