/-!
# TOML documents

The tree that a TOML document describes. Tables remember how they came to be,
because that decides what may still be added to them: a table is opened by its
header once, a table made by a dotted key takes only dotted keys, and an inline
table is complete where it stands.
-/

namespace Rulebook

/-- How a table came to be. -/
inductive Toml.Origin where
  /-- By the header of a table below it. -/
  | implicit
  /-- By its own header, or as the root. -/
  | header
  /-- By a dotted key. -/
  | dotted
deriving DecidableEq, Repr

/-- A value or a table. Floats and dates are told apart from the rest, no more. -/
inductive Toml where
  | text (value : String)
  | integer (value : Int64)
  | boolean (value : Bool)
  | float
  | date
  | array (values : List Toml)
  /-- A table that is complete where it stands. -/
  | inline (entries : List (String × Toml))
  /-- Tables under headers in double brackets, oldest first. -/
  | tables (items : List (List (String × Toml)))
  | table (origin : Toml.Origin) (entries : List (String × Toml))

namespace Toml

/-- The entries of a table. -/
abbrev Entries := List (String × Toml)

/-- Replaces the value of a key. -/
def setEntry (key : String) (value : Toml) (entries : Entries) : Entries :=
  entries.map fun entry => if entry.1 = key then (key, value) else entry

/-- Changes the table at a path, making the tables on the way that are missing: for a dotted
key if `dotted`, and else for a header. A dotted key does not enter a table that has a header of
its own. Where tables stand in a list, the way leads through the newest. -/
def descend (dotted : Bool) (change : Origin → Entries → Option Entries) :
    List String → Origin → Entries → Option Entries
  | [], origin, entries => change origin entries
  | key :: path, _, entries =>
    let made := if dotted then Origin.dotted else Origin.implicit
    match entries.lookup key with
    | none => do
      return entries ++ [(key, .table made (← descend dotted change path made []))]
    | some (.table origin below) =>
      if dotted && origin == .header then none
      else do
        return setEntry key (.table origin (← descend dotted change path origin below)) entries
    | some (.tables items) => do
      let newest ← items.getLast?
      let changed ← descend dotted change path .header newest
      return setEntry key (.tables (items.dropLast ++ [changed])) entries
    | some _ => none

/-- Adds a key that is not there yet. -/
def addEntry (key : String) (value : Toml) (entries : Entries) : Option Entries :=
  if (entries.lookup key).isSome then none else some (entries ++ [(key, value)])

/-- Gives a dotted key a value. -/
def assign (path : List String) (key : String) (value : Toml) (origin : Origin)
    (entries : Entries) : Option Entries :=
  descend true
    (fun reached below =>
      if (reached == .dotted) == path.isEmpty then none else addEntry key value below)
    path origin entries

/-- Opens a table by its header. -/
def openTable (key : String) (_ : Origin) (entries : Entries) : Option Entries :=
  match entries.lookup key with
  | none => some (entries ++ [(key, .table .header [])])
  | some (.table .implicit below) => some (setEntry key (.table .header below) entries)
  | some _ => none

/-- Adds a table to a list of tables by its header. -/
def openItem (key : String) (_ : Origin) (entries : Entries) : Option Entries :=
  match entries.lookup key with
  | none => some (entries ++ [(key, .tables [[]])])
  | some (.tables items) => some (setEntry key (.tables (items ++ [[]])) entries)
  | some _ => none

/-- A line of a document that says something. -/
inductive Statement where
  /-- Gives a key a value. -/
  | assign (path : List String) (key : String) (value : Toml)
  /-- Opens a table. -/
  | table (path : List String) (key : String)
  /-- Adds a table to a list of tables. -/
  | item (path : List String) (key : String)

/-- Carries out statements in order; `current` is the table that was opened last. -/
def build (current : List String) : List Statement → Entries → Option Entries
  | [], root => some root
  | .assign path key value :: rest, root => do
    build current rest (← descend false (Toml.assign path key value) current .header root)
  | .table path key :: rest, root => do
    build (path ++ [key]) rest (← descend false (openTable key) path .header root)
  | .item path key :: rest, root => do
    build (path ++ [key]) rest (← descend false (openItem key) path .header root)

end Toml

end Rulebook
