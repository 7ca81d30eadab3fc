import Rulebook.Geometry
import Rulebook.Id
import Rulebook.Uuid

/-!
# Regions

A region is a named box of the world that a script can refer to. It is
numbered within its scenario; one that several scenarios share also has a
stable identifier.
-/

namespace Rulebook

/-- A named box of the world. -/
structure Region where
  id : RegionId
  name : String
  /-- The identifier that the region keeps in other scenarios, if it has one. -/
  stableId : Option Uuid
  bounds : Bounds
deriving DecidableEq

end Rulebook
