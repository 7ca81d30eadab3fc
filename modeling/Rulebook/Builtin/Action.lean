import Rulebook.Variant

/-!
# Action variants

Each action evaluates all of its arguments and then asks the host for one
effect.
-/

namespace Rulebook.Builtin

/-- Gives a player blocks. -/
def giveBlock : Rule := do
  let player ← Script.entityArg "player"
  let amount ← Script.intArg "amount"
  let block ← Script.blockArg "block"
  .perform (.giveBlocks player block amount) (.done .unit)

/-- Takes blocks from a player. -/
def removeBlock : Rule := do
  let player ← Script.entityArg "player"
  let amount ← Script.intArg "amount"
  let block ← Script.blockArg "block"
  .perform (.removeBlocks player block amount) (.done .unit)

/-- Gives a player items. -/
def giveItem : Rule := do
  let player ← Script.entityArg "player"
  let amount ← Script.intArg "amount"
  let item ← Script.itemArg "item"
  .perform (.giveItems player item amount) (.done .unit)

/-- Says something to everyone. -/
def sendChatMessage : Rule := do
  let message ← Script.textArg "message"
  .perform (.broadcast message) (.done .unit)

/-- Says something to one player. -/
def sendPlayerMessage : Rule := do
  let player ← Script.entityArg "player"
  let message ← Script.textArg "message"
  .perform (.sendMessage player message) (.done .unit)

/-- Writes a line in the script log. -/
def logMessage : Rule := do
  let message ← Script.textArg "message"
  .perform (.log message) (.done .unit)

/-- Moves a player into a region, which must exist. -/
def teleportToRegion : Rule := do
  let player ← Script.entityArg "player"
  let id ← Script.regionArg "region"
  .region id fun region => .perform (.teleport player region) (.done .unit)

/-- An action variant. -/
def action (id : VariantId) (rule : Rule) (params : List Param) (template : String) : Variant :=
  { id, kind := .action, result := .unit, rule, params, template }

/-- The action variants. -/
def actions : List Variant :=
  [action "GiveBlock" giveBlock
     [{ name := "player", type := .entity },
      { name := "amount", type := .int, fallback := some (.int 1) },
      { name := "block", type := .block }]
     "give \x7bplayer\x7d \x7bamount\x7d \x7bblock\x7d",
   action "RemoveBlock" removeBlock
     [{ name := "player", type := .entity },
      { name := "amount", type := .int, fallback := some (.int 1) },
      { name := "block", type := .block }]
     "take \x7bamount\x7d \x7bblock\x7d from \x7bplayer\x7d",
   action "GiveItem" giveItem
     [{ name := "player", type := .entity },
      { name := "amount", type := .int, fallback := some (.int 1) },
      { name := "item", type := .item }]
     "give \x7bplayer\x7d \x7bamount\x7d \x7bitem\x7d",
   action "SendChatMessage" sendChatMessage
     [{ name := "message", type := .text }]
     "say \x7bmessage\x7d",
   action "SendPlayerMessage" sendPlayerMessage
     [{ name := "player", type := .entity }, { name := "message", type := .text }]
     "tell \x7bplayer\x7d \x7bmessage\x7d",
   action "LogMessage" logMessage
     [{ name := "message", type := .text }]
     "log \x7bmessage\x7d",
   action "TeleportToRegion" teleportToRegion
     [{ name := "player", type := .entity }, { name := "region", type := .region }]
     "teleport \x7bplayer\x7d to \x7bregion\x7d"]

end Rulebook.Builtin
