import Rulebook.Json
import Rulebook.Text.Decimal
import Rulebook.Text.Hex
import Rulebook.Text.Scanner

/-!
# JSON texts

Reading a JSON text and writing one. A number without fraction and exponent is
an integer if 64 bits hold it; every other number, minus zero among them, is a
coordinate. Of fields with the same name the last counts.

How a coordinate is written is left to the caller, because there are more
faithful ways than decimal.
-/

namespace Rulebook.Json

open Text (Scanner)
open Text.Scanner

/-! ## Reading -/

/-- Blanks between the parts of a text. -/
def blanks : Scanner Unit :=
  discard (charsWhile fun c => c == ' ' || c == '\t' || c == '\n' || c == '\r')

/-- A number of digits. -/
def digits : Scanner (List Char) := someChars Char.isDigit

/-- The value of digits. -/
def valueOf (digits : List Char) : Nat := (Text.digitsFrom? 0 digits).getD 0

/-- The digits before the point, where only zero begins with a zero. -/
def wholeDigits : Scanner (List Char) :=
  either (do let zero ← charWhere (· == '0'); return [zero]) digits

/-- The digits after the point. -/
def fraction : Scanner (List Char) := do
  literally "."
  digits

/-- An exponent. -/
def exponent : Scanner Int := do
  discard (charWhere fun c => c == 'e' || c == 'E')
  let sign ← perhaps (charWhere fun c => c == '+' || c == '-')
  let size := valueOf (← digits)
  return if sign = some '-' then -(size : Int) else size

/-- The number of an integer without fraction and exponent. -/
def ofWhole (negative : Bool) (size : Nat) : Json :=
  if negative then
    if size = 0 ∨ -(size : Int) < Int64.minValue.toInt then float (.ofDecimal true size 0) else int (-(size : Int))
  else if size < limit64 then int size else float (.ofDecimal false size 0)

/-- A number. -/
def number : Scanner Json := do
  let negative := (← perhaps (literally "-")).isSome
  let whole ← wholeDigits
  let places ← perhaps fraction
  let power ← perhaps exponent
  match places, power with
  | none, none => return ofWhole negative (valueOf whole)
  | places, power =>
    let places := places.getD []
    return float
      (.ofDecimal negative (valueOf (whole ++ places)) (power.getD 0 - places.length))

/-- Four hexadecimal digits. -/
def unit : Scanner Nat := do (Text.hexValue? 0 (← chars 4) : Option Nat)

/-- The character of one escaped unit, or of two that belong together. -/
def escapedUnits : Scanner Char := do
  let first ← unit
  if 0xD800 ≤ first ∧ first < 0xDC00 then
    literally "\\u"
    let second ← unit
    unless 0xDC00 ≤ second ∧ second < 0xE000 do failure
    return Char.ofNat (0x10000 + (first - 0xD800) * 0x400 + (second - 0xDC00))
  else if h : first.isValidChar then return Char.ofNatAux first h
  else failure

/-- What follows the backslash of an escape. -/
def escaped : Scanner Char := do
  match ← anyChar with
  | '"' => return '"'
  | '\\' => return '\\'
  | '/' => return '/'
  | 'b' => return '\x08'
  | 'f' => return '\x0c'
  | 'n' => return '\n'
  | 'r' => return '\r'
  | 't' => return '\t'
  | 'u' => escapedUnits
  | _ => failure

/-- The rest of a text between quotes. Control characters must be escaped. -/
def quotedRest : (fuel : Nat) → Scanner (List Char)
  | 0 => failure
  | fuel + 1 => do
    match ← anyChar with
    | '"' => return []
    | '\\' => return (← escaped) :: (← quotedRest fuel)
    | c => if c < ' ' then failure else return c :: (← quotedRest fuel)

/-- A text between quotes. -/
def quoted (fuel : Nat) : Scanner String := do
  literally "\""
  return String.ofList (← quotedRest fuel)

/-- Puts a field into an object, where it replaces one of the same name. -/
def putField (fields : List (String × Json)) (field : String × Json) : List (String × Json) :=
  fields.filter (fun other => other.1 != field.1) ++ [field]

mutual

/-- A value, whose parts nest and follow each other no more than `fuel` times. -/
def value : (fuel : Nat) → Scanner Json
  | 0 => failure
  | fuel + 1 => do
    blanks
    match (← get).head? with
    | some 'n' => do literally "null"; return null
    | some 't' => do literally "true"; return bool true
    | some 'f' => do literally "false"; return bool false
    | some '"' => return text (← quoted fuel)
    | some '[' => do
      literally "["
      blanks
      match ← perhaps (literally "]") with
      | some _ => return list []
      | none => return list (← values fuel)
    | some '{' => do
      literally "\x7b"
      blanks
      match ← perhaps (literally "\x7d") with
      | some _ => return object []
      | none => return object ((← fields fuel).foldl putField [])
    | _ => number

/-- The values of a list up to its closing bracket. -/
def values : (fuel : Nat) → Scanner (List Json)
  | 0 => failure
  | fuel + 1 => do
    let first ← value fuel
    blanks
    match ← anyChar with
    | ',' => return first :: (← values fuel)
    | ']' => return [first]
    | _ => failure

/-- The fields of an object up to its closing brace. -/
def fields : (fuel : Nat) → Scanner (List (String × Json))
  | 0 => failure
  | fuel + 1 => do
    blanks
    let name ← quoted fuel
    blanks
    literally ":"
    let content ← value fuel
    blanks
    match ← anyChar with
    | ',' => return (name, content) :: (← fields fuel)
    | '}' => return [(name, content)]
    | _ => failure

end

/-- Reads a JSON text. -/
def parse? (text : String) : Option Json := do
  let chars := text.toList
  let (found, rest) ← (value (chars.length + 1)).run chars
  if (← blanks.run rest).2.isEmpty then return found else none

/-! ## Writing -/

/-- A character within quotes. -/
def quotedChar (c : Char) : List Char :=
  if c = '"' ∨ c = '\\' then ['\\', c]
  else if c < ' ' then '\\' :: 'u' :: Text.hexDigits c.toNat 4
  else [c]

/-- A text between quotes. -/
def writeText (text : String) : String :=
  "\"" ++ String.ofList (text.toList.flatMap quotedChar) ++ "\""

mutual

/-- A value as a text, where `number` writes coordinates. -/
def write (number : Coordinate → String) : Json → String
  | null => "null"
  | bool true => "true"
  | bool false => "false"
  | int value => toString value
  | float value => number value
  | text value => writeText value
  | list values => "[" ++ String.intercalate "," (writeAll number values) ++ "]"
  | object fields => "\x7b" ++ String.intercalate "," (writeFields number fields) ++ "\x7d"

/-- The values of a list. -/
def writeAll (number : Coordinate → String) : List Json → List String
  | [] => []
  | value :: rest => value.write number :: writeAll number rest

/-- The fields of an object. -/
def writeFields (number : Coordinate → String) : List (String × Json) → List String
  | [] => []
  | (name, value) :: rest =>
    (writeText name ++ ":" ++ value.write number) :: writeFields number rest

end

end Rulebook.Json
