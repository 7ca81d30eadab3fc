import Rulebook.Text.Cut

/-!
# Scanners

A scanner reads one part off the front of a text and yields the rest, or
refuses. What a format has to say about its small parts is said with these.
-/

namespace Rulebook.Text

/-- Reads something off the front of a text. -/
abbrev Scanner (α : Type) := StateT (List Char) Option α

namespace Scanner

/-- Tries one scanner and, if it refuses, another. -/
def either {α : Type} (first second : Scanner α) : Scanner α := fun text =>
  (first text).orElse fun _ => second text

/-- Tries a scanner; where it refuses, nothing is read. -/
def perhaps {α : Type} (scanner : Scanner α) : Scanner (Option α) := fun text =>
  match scanner text with
  | some (a, rest) => some (some a, rest)
  | none => some (none, text)

/-- The character at the front. -/
def anyChar : Scanner Char
  | c :: rest => some (c, rest)
  | [] => none

/-- The character at the front, if the condition holds of it. -/
def charWhere (condition : Char → Bool) : Scanner Char := do
  let c ← anyChar
  if condition c then return c else failure

/-- All characters at the front of which the condition holds. -/
def charsWhile (condition : Char → Bool) : Scanner (List Char) := fun text =>
  some (text.takeWhile condition, text.dropWhile condition)

/-- At least one character of which the condition holds. -/
def someChars (condition : Char → Bool) : Scanner (List Char) := do
  let chars ← charsWhile condition
  if chars.isEmpty then failure else return chars

/-- A given number of characters. -/
def chars : (count : Nat) → Scanner (List Char)
  | 0 => return []
  | count + 1 => do
    let first ← anyChar
    return first :: (← chars count)

/-- A given text. -/
def literally (expected : String) : Scanner Unit := fun text =>
  (dropStart? expected.toList text).map fun rest => ((), rest)

/-- The end of the text. -/
def atEnd : Scanner Unit
  | [] => some ((), [])
  | _ :: _ => none

end Scanner

end Rulebook.Text
