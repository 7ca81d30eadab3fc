import Rulebook.Config
import Rulebook.Toml.Document

/-!
# Settings in TOML

Settings are read from a document with the keys `seed`, `max_depth` and
`log_condition_results`, each of which may be missing. Other keys are ignored,
and integers may not be negative.
-/

namespace Rulebook

namespace Config

open Toml (Entries)

/-- An integer that is not negative. -/
def natOfToml? : Toml → Option Nat
  | .integer value => if 0 ≤ value then some value.toInt.toNat else none
  | _ => none

/-- A boolean. -/
def boolOfToml? : Toml → Option Bool
  | .boolean value => some value
  | _ => none

/-- A setting, which may be missing but not of another type. -/
def setting? {α : Type} (read? : Toml → Option α) (entries : Entries) (key : String) :
    Option (Option α) :=
  match entries.lookup key with
  | none => some none
  | some value => (read? value).map some

/-- The settings of a table. -/
def ofEntries? (entries : Entries) : Option Config := do
  let seed ← setting? natOfToml? entries "seed"
  let depth ← setting? natOfToml? entries "max_depth"
  let logging ← setting? boolOfToml? entries "log_condition_results"
  return ⟨seed.map UInt64.ofNat, depth.getD defaultMaxDepth, logging.getD false⟩

/-- Reads settings and checks them. -/
def ofToml (text : String) : Except ConfigError Config :=
  match (Toml.parse? text).bind ofEntries? with
  | none => .error .malformed
  | some config => do
    config.check
    return config

/-- Reads settings from the contents of a file, which are absent if it cannot be read. -/
def ofFile : Option String → Except ConfigError Config
  | none => .error .unreadable
  | some contents => ofToml contents

end Config

end Rulebook
