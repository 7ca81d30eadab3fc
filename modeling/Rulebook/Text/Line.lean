/-!
# Lines

A line ends at a line feed, or at a carriage return followed by a line feed;
a carriage return elsewhere is an ordinary character. A last line that is
empty does not count as a line.
-/

namespace Rulebook.Text

/-- Cuts a text at every line feed: the part before the first, and the parts after each. -/
def cutAtLineFeeds (text : List Char) : List Char × List (List Char) :=
  text.foldr
    (fun c (first, others) => if c = '\n' then ([], first :: others) else (c :: first, others))
    ([], [])

/-- A line that ended at a line feed, without the carriage return that may precede it. -/
def dropCarriageReturn (line : List Char) : List Char :=
  if line.getLast? = some '\r' then line.dropLast else line

/-- The lines of the parts of a text: all but the last part ended at a line feed. -/
def endedLines : List Char → List (List Char) → List (List Char)
  | last, [] => if last.isEmpty then [] else [last]
  | part, next :: others => dropCarriageReturn part :: endedLines next others

/-- The lines of a text. -/
def lines (text : List Char) : List (List Char) :=
  let (first, others) := cutAtLineFeeds text
  endedLines first others

/-- The lines of a text with their numbers, counted from 1. -/
def numberedLines (text : List Char) : List (Nat × List Char) :=
  (lines text).zipIdx.map fun (line, index) => (index + 1, line)

end Rulebook.Text
