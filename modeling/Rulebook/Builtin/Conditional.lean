import Rulebook.Variant

/-!
# Conditional variants

Comparisons, and the connectives that join conditions. A connective evaluates
its second operand only if the first does not settle the matter.
-/

namespace Rulebook.Builtin

/-- Compares two integers. -/
def intCompare : Rule := do
  let left ← Script.intArg "left"
  let right ← Script.intArg "right"
  let comparator ← Script.comparatorArg "comparator"
  return .bool (comparator.holdsInt left right)

/-- Compares two texts. -/
def stringCompare : Rule := do
  let left ← Script.textArg "left"
  let right ← Script.textArg "right"
  let comparator ← Script.comparatorArg "comparator"
  return .bool (comparator.holdsText left right)

/-- Whether a cause of damage is the expected one. -/
def damageTypeIs : Rule := do
  let actual ← Script.damageTypeArg "damageType"
  let expected ← Script.damageTypeArg "expected"
  return .bool (actual == expected)

/-- Whether a player is in a region, which must exist. -/
def playerInRegion : Rule := do
  let player ← Script.entityArg "player"
  let id ← Script.regionArg "region"
  .region id fun region => do
    return .bool (← Script.answerTo (.isInRegion player region))

/-- Whether both operands hold. -/
def both : Rule := do
  if ← Script.boolArg "left" then
    return .bool (← Script.boolArg "right")
  else
    return .bool false

/-- Whether either operand holds. -/
def either : Rule := do
  if ← Script.boolArg "left" then
    return .bool true
  else
    return .bool (← Script.boolArg "right")

/-- Whether the operand does not hold. -/
def negation : Rule := do
  return .bool (!(← Script.boolArg "value"))

/-- A conditional variant. -/
def conditional (id : VariantId) (rule : Rule) (params : List Param) (template : String) :
    Variant :=
  { id, kind := .conditional, result := .bool, rule, params, template }

/-- The conditional variants. -/
def conditionals : List Variant :=
  [conditional "IntCompare" intCompare
     [{ name := "left", type := .int }, { name := "right", type := .int },
      { name := "comparator", type := .comparator, fallback := some (.comparator .equal) }]
     "\x7bleft\x7d \x7bcomparator\x7d \x7bright\x7d",
   conditional "StringCompare" stringCompare
     [{ name := "left", type := .text }, { name := "right", type := .text },
      { name := "comparator", type := .comparator, fallback := some (.comparator .equal) }]
     "\x7bleft\x7d \x7bcomparator\x7d \x7bright\x7d",
   conditional "DamageTypeIs" damageTypeIs
     [{ name := "damageType", type := .damageType }, { name := "expected", type := .damageType }]
     "\x7bdamageType\x7d is \x7bexpected\x7d",
   conditional "PlayerInRegion" playerInRegion
     [{ name := "player", type := .entity }, { name := "region", type := .region }]
     "\x7bplayer\x7d is in \x7bregion\x7d",
   conditional "And" both
     [{ name := "left", type := .bool }, { name := "right", type := .bool }]
     "(\x7bleft\x7d and \x7bright\x7d)",
   conditional "Or" either
     [{ name := "left", type := .bool }, { name := "right", type := .bool }]
     "(\x7bleft\x7d or \x7bright\x7d)",
   conditional "Not" negation
     [{ name := "value", type := .bool }]
     "not \x7bvalue\x7d"]

end Rulebook.Builtin
