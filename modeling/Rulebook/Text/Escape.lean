/-!
# Text on one line

A text written on a line of its own has its line ends and backslashes escaped:
a backslash is doubled, a line feed becomes backslash `n` and a carriage
return backslash `r`. All other characters stand for themselves.
-/

namespace Rulebook.Text

/-- One character as it is written on a line. -/
def escapeChar : Char → List Char
  | '\\' => ['\\', '\\']
  | '\n' => ['\\', 'n']
  | '\r' => ['\\', 'r']
  | c => [c]

/-- A text as it is written on a line. -/
def escape (text : List Char) : List Char := text.flatMap escapeChar

/-- Reads a written text back. A backslash must be followed by a backslash, `n` or `r`. -/
def unescape? : List Char → Option (List Char)
  | [] => some []
  | '\\' :: '\\' :: rest => (unescape? rest).map ('\\' :: ·)
  | '\\' :: 'n' :: rest => (unescape? rest).map ('\n' :: ·)
  | '\\' :: 'r' :: rest => (unescape? rest).map ('\r' :: ·)
  | c :: rest => if c = '\\' then none else (unescape? rest).map (c :: ·)

end Rulebook.Text
