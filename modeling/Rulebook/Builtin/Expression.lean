import Rulebook.Variant

/-!
# Expression variants

Facts of the occurrence, arithmetic, texts, and what players hold.
-/

namespace Rulebook.Builtin

/-- An integer between two bounds, which may come in either order. -/
def randomInt : Rule := do
  let low ← Script.intArg "low"
  let high ← Script.intArg "high"
  if low ≤ high then .roll low high fun drawn => .done (.int drawn)
  else .roll high low fun drawn => .done (.int drawn)

/-- The sum of two integers, stopped at the ends of their range. -/
def addInt : Rule := do
  let left ← Script.intArg "left"
  let right ← Script.intArg "right"
  return .int (saturatingAdd left right)

/-- The difference of two integers, stopped at the ends of their range. -/
def subtractInt : Rule := do
  let left ← Script.intArg "left"
  let right ← Script.intArg "right"
  return .int (saturatingSub left right)

/-- How many blocks of a type a player holds. -/
def countOfBlock : Rule := do
  let player ← Script.entityArg "player"
  let block ← Script.blockArg "block"
  return .int (← Script.answerTo (.countBlocks player block))

/-- How many items of a type a player holds. -/
def countOfItem : Rule := do
  let player ← Script.entityArg "player"
  let item ← Script.itemArg "item"
  return .int (← Script.answerTo (.countItems player item))

/-- One text after the other. -/
def concatString : Rule := do
  let first ← Script.textArg "string1"
  let second ← Script.textArg "string2"
  return .text (first ++ second)

/-- An integer in decimal. -/
def intToString : Rule := do
  let value ← Script.intArg "value"
  return .text (integerText value)

/-- The name of a player, who must be one. -/
def playerName : Rule := do
  let player ← Script.entityArg "player"
  match ← Script.answerTo (.playerName player) with
  | some name => return .text name
  | none => .fail (.danglingReference player.text)

/-- An expression variant. -/
def expression (id : VariantId) (result : ValueType) (rule : Rule) (params : List Param)
    (template : String) : Variant :=
  { id, kind := .expression, result, rule, params, template }

/-- The expression variants. -/
def expressions : List Variant :=
  [expression "TriggeringPlayer" .entity
     (return .entity (← Script.fact "triggering player" (·.actor)))
     [] "triggering player",
   expression "DestroyedBlock" .block
     (return .block (← Script.fact "destroyed block" (·.destroyed)))
     [] "destroyed block",
   expression "TriggeringRegion" .region
     (return .region (← Script.fact "region" (·.region)))
     [] "triggering region",
   expression "EventDamageType" .damageType
     (return .damageType (← Script.fact "damage type" (·.damage)))
     [] "damage type",
   expression "RandomInt" .int randomInt
     [{ name := "low", type := .int }, { name := "high", type := .int }]
     "random number between \x7blow\x7d and \x7bhigh\x7d",
   expression "AddInt" .int addInt
     [{ name := "left", type := .int }, { name := "right", type := .int }]
     "(\x7bleft\x7d + \x7bright\x7d)",
   expression "SubtractInt" .int subtractInt
     [{ name := "left", type := .int }, { name := "right", type := .int }]
     "(\x7bleft\x7d - \x7bright\x7d)",
   expression "CountOfBlock" .int countOfBlock
     [{ name := "player", type := .entity }, { name := "block", type := .block }]
     "number of \x7bblock\x7d held by \x7bplayer\x7d",
   expression "CountOfItem" .int countOfItem
     [{ name := "player", type := .entity }, { name := "item", type := .item }]
     "number of \x7bitem\x7d held by \x7bplayer\x7d",
   expression "ConcatString" .text concatString
     [{ name := "string1", type := .text }, { name := "string2", type := .text }]
     "\x7bstring1\x7d + \x7bstring2\x7d",
   expression "IntToString" .text intToString
     [{ name := "value", type := .int }]
     "text of \x7bvalue\x7d",
   expression "PlayerName" .text playerName
     [{ name := "player", type := .entity }]
     "name of \x7bplayer\x7d"]

end Rulebook.Builtin
