import Rulebook.Text.Hex
import Rulebook.Text.Printable

/-!
# Quoted text

Names and payloads that a message repeats stand between double quotes, so that
the reader sees where they end. Quotes and backslashes get a backslash; line
ends, tabs and NUL have a letter of their own; every other character that
would not show is written by its code point.
-/

namespace Rulebook.Text

/-- One character as it stands between quotes. -/
def quotedChar (c : Char) : List Char :=
  match c with
  | '"' => ['\\', '"']
  | '\\' => ['\\', '\\']
  | '\n' => ['\\', 'n']
  | '\r' => ['\\', 'r']
  | '\t' => ['\\', 't']
  | '\x00' => ['\\', '0']
  | c => if isPrintable c then [c] else '\\' :: 'u' :: '{' :: hex c.toNat ++ ['}']

/-- A text between double quotes. -/
def quoted (text : String) : String :=
  String.ofList ('"' :: text.toList.flatMap quotedChar ++ ['"'])

end Rulebook.Text
