import Rulebook.Variant

/-!
# Event variants

One variant for each kind of occurrence. Those of regions can name the region
they are meant for.
-/

namespace Rulebook.Builtin

/-- An event variant. Its nodes have no value of their own. -/
def event (id : VariantId) (kind : OccurrenceKind) (params : List Param) (template : String) :
    Variant :=
  { id, kind := .event, result := .unit, params, template, rule := .done .unit,
    listensTo := some kind }

/-- The event variants. -/
def events : List Variant :=
  [event "BlockDestroyed" .blockDestroyed [] "when a block is destroyed",
   event "PlayerSpawned" .playerSpawned [] "when a player spawns",
   event "PlayerRespawned" .playerRespawned [] "when a player respawns",
   event "RegionEntered" .regionEntered [{ name := "region", type := .region }]
     "when a player enters \x7bregion\x7d",
   event "RegionLeft" .regionLeft [{ name := "region", type := .region }]
     "when a player leaves \x7bregion\x7d"]

end Rulebook.Builtin
