import Rulebook.Rejection

/-!
# Faults of an interchange text

Why a text could not be written or read. A fault of reading carries the number
of the line at which it shows, counted from 1; a fault of writing has no line
and counts as line 0.
-/

namespace Rulebook

/-- How a line departs from the format. -/
inductive Malformation where
  | unterminatedSegment
  | badSegmentName
  | missingMarker
  | strayValue
  | triggerHeader
  | enabledFlag
  | sectionHeader
  | emptySection
deriving DecidableEq, Repr

/-- The departure in words. -/
def Malformation.message : Malformation → String
  | unterminatedSegment => "unterminated path segment"
  | badSegmentName => "path segment is not a parameter name"
  | missingMarker => "expected '#' or '$' after the path"
  | strayValue => "value line does not follow a value definition at the same path"
  | triggerHeader => "expected '@trigger <name>'"
  | enabledFlag => "expected '@enabled true' or '@enabled false'"
  | sectionHeader => "expected '@event', '@condition' or '@action'"
  | emptySection => "section has no node lines"

/-- Why a text could not be written or read. -/
inductive InterchangeError where
  | empty
  | malformed (line : Nat) (how : Malformation)
  | unknownVariant (line : Nat) (name : String)
  | orphanLine (line : Nat) (path : String)
  | duplicatePath (line : Nat) (path : String)
  | invalidLiteral (line : Nat) (variant : VariantId) (text : String)
  | missingLiteral (line : Nat) (variant : VariantId)
  | unresolvedReference (line : Nat) (reference : String)
  | rejected (line : Nat) (cause : Rejection)
  | unknownNode (node : NodeId)
deriving DecidableEq, Repr

namespace InterchangeError

/-- A fault in words, after the number of its line. -/
def atLine (line : Nat) (what : String) : String := "line " ++ toString line ++ ": " ++ what

/-- A fault in words. -/
def message : InterchangeError → String
  | empty => "empty encoding"
  | malformed line how => atLine line how.message
  | unknownVariant line name => atLine line ("unknown variant " ++ Text.quoted name)
  | orphanLine line path => atLine line ("no node defined at parent path " ++ Text.quoted path)
  | duplicatePath line path => atLine line ("path " ++ Text.quoted path ++ " defined twice")
  | invalidLiteral line variant text =>
    atLine line ("invalid literal " ++ Text.quoted text ++ " for " ++ variant)
  | missingLiteral line variant => atLine line (variant ++ " has no value line")
  | unresolvedReference line reference => atLine line ("unresolved reference " ++ reference)
  | rejected line cause => atLine line cause.message
  | unknownNode node => "unknown node " ++ node.text

end InterchangeError

end Rulebook
