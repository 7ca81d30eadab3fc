/-!
# Configuration

What a host can set about the engine: the seed of the random source, how deep
an evaluation may go, and whether results of conditions are logged.
-/

namespace Rulebook

/-- How deep an evaluation may go unless told otherwise. -/
def defaultMaxDepth : Nat := 64

/-- The settings of an engine. -/
structure Config where
  /-- The seed of the random source; without one the host picks a source itself. -/
  seed : Option UInt64 := none
  maxDepth : Nat := defaultMaxDepth
  logConditions : Bool := false
deriving DecidableEq, Repr

/-- Why settings were refused. -/
inductive ConfigError where
  /-- The file with the settings cannot be read. -/
  | unreadable
  /-- The text does not describe settings. -/
  | malformed
  /-- No evaluation could do anything. -/
  | depthTooSmall
deriving DecidableEq, Repr

/-- A refusal in words, if there is something to say. -/
def ConfigError.message? : ConfigError → Option String
  | unreadable | malformed => none
  | depthTooSmall => some "configuration error: max_depth must be at least 1"

namespace Config

/-- The settings with another depth, at least 1. -/
def withMaxDepth (config : Config) (depth : Nat) : Config :=
  { config with maxDepth := max depth 1 }

/-- Checks that an evaluation can do anything. -/
def check (config : Config) : Except ConfigError Unit :=
  if config.maxDepth = 0 then .error .depthTooSmall else .ok ()

end Config

end Rulebook
