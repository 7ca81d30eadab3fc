import Rulebook.Variant

/-!
# Value variants

One variant for each type of literal. A node of it stands for its literal.
-/

namespace Rulebook.Builtin

/-- The node's own literal. -/
def ownLiteral : Rule :=
  .literal fun
    | some literal => .resolve literal .done
    | none => .fail (.missingArgument "literal")

/-- A variant whose nodes carry a literal of a type. -/
def valueVariant (id : VariantId) (type : ValueType) : Variant :=
  { id, kind := .value, result := type, literal := some type, rule := ownLiteral }

/-- The value variants. -/
def values : List Variant :=
  [valueVariant "IntValue" .int,
   valueVariant "StringValue" .text,
   valueVariant "BooleanValue" .bool,
   valueVariant "ComparatorValue" .comparator,
   valueVariant "DamageTypeValue" .damageType,
   valueVariant "BlockValue" .block,
   valueVariant "ItemValue" .item,
   valueVariant "RegionValue" .region]

end Rulebook.Builtin
