import Rulebook.Forest
import Rulebook.Region
import Rulebook.Trigger

/-!
# Scenarios

A scenario is a whole script: the nodes, the triggers in the order in which
they run, and the regions that the nodes refer to. Triggers and regions, like
nodes, take numbers that were never used before.
-/

namespace Rulebook

/-- A script. -/
structure Scenario where
  name : String
  forest : Forest := .empty
  /-- The triggers, in the order in which they run. -/
  triggers : List Trigger := []
  /-- The regions, oldest first. -/
  regions : List Region := []
  nextTrigger : Nat := 0
  nextRegion : Nat := 0
deriving DecidableEq

namespace Scenario

/-- A script without anything in it. -/
def empty (name : String) : Scenario := { name }

instance : Inhabited Scenario := ⟨empty ""⟩

/-- The trigger of a number. -/
def trigger? (scenario : Scenario) (id : TriggerId) : Option Trigger :=
  scenario.triggers.find? fun trigger => trigger.id == id

/-- The first trigger of a name. -/
def triggerNamed? (scenario : Scenario) (name : String) : Option Trigger :=
  scenario.triggers.find? fun trigger => trigger.name == name

/-- Where a trigger stands among the others. -/
def triggerIndex? (scenario : Scenario) (id : TriggerId) : Option Nat :=
  scenario.triggers.findIdx? fun trigger => trigger.id == id

/-- The region of a number. -/
def region? (scenario : Scenario) (id : RegionId) : Option Region :=
  scenario.regions.find? fun region => region.id == id

/-- The region of a stable identifier. -/
def regionOfStableId? (scenario : Scenario) (stableId : Uuid) : Option Region :=
  scenario.regions.find? fun region => region.stableId == some stableId

end Scenario

end Rulebook
