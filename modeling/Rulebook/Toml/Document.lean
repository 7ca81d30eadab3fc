import Rulebook.Toml.Scan
import Rulebook.Toml.Value

/-!
# Reading TOML

A document is a sequence of lines, each of which is empty, gives a key a value,
or opens a table. Arrays and inline tables nest in values to a fixed depth.
-/

namespace Rulebook.Toml

open Scanner
open Text (Scanner)
open Text.Scanner

/-- How deep arrays and inline tables may nest, and how many parts a key may have. -/
def maxNesting : Nat := 79

/-- Splits a key into its last part and the path before it. -/
def splitKey? (parts : List String) : Option (List String × String) :=
  parts.getLast?.map fun key => (parts.dropLast, key)

/-- A key and the path before it. -/
def key (fuel : Nat) : Scanner (List String × String) := do
  let parts ← dottedKey fuel
  if parts.length ≤ maxNesting then (splitKey? parts : Option _) else failure

/-- A value that holds no others. -/
def scalar (fuel : Nat) : Scanner Toml :=
  either (do return .text (← anyText fuel)) <|
  either (do literally "true"; return .boolean true) <|
  either (do literally "false"; return .boolean false) <|
  either (do Scanner.date; return .date) <|
  either (do Scanner.float fuel; return .float)
    (do return .integer (← Scanner.integer fuel))

/-- The rest of an array, whose values `value` reads. -/
def arrayRest (value : Scanner Toml) : (fuel : Nat) → Scanner (List Toml)
  | 0 => failure
  | fuel + 1 => do
    spacing fuel
    match ← perhaps (literally "]") with
    | some _ => return []
    | none => do
      let first ← value
      spacing fuel
      match ← perhaps (literally ",") with
      | some _ => return first :: (← arrayRest value fuel)
      | none => do
        literally "]"
        return [first]

/-- A key and its value, which `value` reads. -/
def keyValue (value : Scanner Toml) (fuel : Nat) : Scanner ((List String × String) × Toml) := do
  let name ← key fuel
  literally "="
  blanks
  return (name, ← value)

/-- The rest of an inline table after an entry. -/
def inlineRest (value : Scanner Toml) (entries : Entries) : (fuel : Nat) → Scanner Entries
  | 0 => failure
  | fuel + 1 => do
    let ((path, name), entry) ← keyValue value fuel
    let grown ← (assign path name entry .header entries : Option _)
    blanks
    match ← perhaps (literally ",") with
    | some _ => inlineRest value grown fuel
    | none => do
      literally "\x7d"
      return grown

/-- An inline table after its opening brace. -/
def inlineTable (value : Scanner Toml) (fuel : Nat) : Scanner Entries := do
  blanks
  match ← perhaps (literally "\x7d") with
  | some _ => return []
  | none => inlineRest value [] fuel

/-- A value in which no more than `levels` arrays and inline tables nest. -/
def value (fuel : Nat) : (levels : Nat) → Scanner Toml
  | 0 => scalar fuel
  | levels + 1 =>
    either (do literally "["; return .array (← arrayRest (value fuel levels) fuel)) <|
    either (do literally "\x7b"; return .inline (← inlineTable (value fuel levels) fuel))
      (scalar fuel)

/-- What a line says, if it says anything. -/
def line (fuel : Nat) : Scanner (Option Statement) := do
  blanks
  let statement ←
    either (do
      literally "[["
      let (path, name) ← key fuel
      literally "]]"
      return some (.item path name)) <|
    either (do
      literally "["
      let (path, name) ← key fuel
      literally "]"
      return some (.table path name)) <|
    either (do
      let ((path, name), entry) ← keyValue (value fuel maxNesting) fuel
      return some (.assign path name entry))
      (return none)
  trailing
  return statement

/-- The lines of a document, no more than `fuel` of them. -/
def document : (fuel : Nat) → Scanner (List Statement)
  | 0 => failure
  | fuel + 1 => do
    match ← perhaps atEnd with
    | some _ => return []
    | none => do
      let statement ← line fuel
      let rest ← document fuel
      return statement.toList ++ rest

/-- The root table of a document, if the text is one. A byte order mark in front is ignored. -/
def parse? (text : String) : Option Entries := do
  let chars := match text.toList with
    | '\ufeff' :: rest => rest
    | chars => chars
  let (statements, _) ← (document (chars.length + 2)).run chars
  build [] statements []

end Rulebook.Toml
