import Rulebook.Id
import Rulebook.Interchange.Error

/-!
# Entries

A tree of nodes is written as entries, one on each line. An entry names a place
in the tree by the slots that lead to it from the root, each name in braces;
then `#` and the variant of the node there, or `$` and its literal. The root
has the empty path. Names hold no braces, so a line can be an entry in one way
only, whatever its payload holds.
-/

namespace Rulebook

/-- A place in a tree: the names of the slots on the way down. -/
abbrev Path := List String

/-- A path as it is written. -/
def Path.chars (path : Path) : List Char :=
  path.flatMap fun name => '{' :: name.toList ++ ['}']

/-- A path as a text. -/
def Path.text (path : Path) : String := String.ofList (Path.chars path)

/-- The path to the node above, and the slot there; the root has neither. -/
def Path.split? (path : Path) : Option (Path × String) :=
  path.getLast?.map fun name => (path.dropLast, name)

/-- Of several slots of one name the first is meant. -/
theorem lookup_slot {α : Type} {name first : String} {held : α} {rest : List (String × α)} :
    List.lookup name ((first, held) :: rest)
      = if name = first then some held else rest.lookup name := by
  by_cases h : name = first
  · rw [if_pos h, h, List.lookup_cons_self]
  · rw [if_neg h, List.lookup_cons, beq_false_of_ne h]

/-- What an entry says about its node. -/
inductive Marker where
  /-- Its variant. -/
  | definition
  /-- Its literal. -/
  | value
deriving DecidableEq, Repr

/-- The sign of a marker. -/
def Marker.char : Marker → Char
  | definition => '#'
  | value => '$'

/-- The marker of a sign. -/
def Marker.ofChar? (c : Char) : Option Marker :=
  if c = '#' then some .definition else if c = '$' then some .value else none

/-- A line of an encoding. -/
structure Entry where
  path : Path
  marker : Marker
  payload : List Char
deriving DecidableEq

namespace Entry

/-- An entry as it is written. -/
def chars (entry : Entry) : List Char :=
  Path.chars entry.path ++ entry.marker.char :: entry.payload

/-- The line of an entry. -/
def text (entry : Entry) : String := String.ofList entry.chars

mutual

/-- Reads the rest of a line after a path, of which `names` lists the names from the last one
back. -/
def parseFrom (names : List String) : List Char → Except Malformation Entry
  | [] => .error .missingMarker
  | c :: rest =>
    if c = '{' then parseName names [] rest
    else match Marker.ofChar? c with
      | some marker => .ok ⟨names.reverse, marker, rest⟩
      | none => .error .missingMarker

/-- Reads the rest of a line after an opening brace and a part of a name, of which `read` lists
the characters from the last one back. -/
def parseName (names : List String) (read : List Char) : List Char → Except Malformation Entry
  | [] => .error .unterminatedSegment
  | c :: rest =>
    if c = '}' then
      if isName read.reverse then parseFrom (String.ofList read.reverse :: names) rest
      else .error .badSegmentName
    else parseName names (c :: read) rest

end

/-- Reads a line. -/
def parse (line : List Char) : Except Malformation Entry := parseFrom [] line

end Entry

end Rulebook
