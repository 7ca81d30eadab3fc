import Rulebook.Geometry.Decimal
import Rulebook.Text.Decimal
import Rulebook.Text.Hex
import Rulebook.Text.Scanner

/-!
# The small parts of TOML

Blanks, comments, keys, texts, numbers and dates, each with a scanner that
reads one off the front of a text.
-/

namespace Rulebook.Toml

open Text (Scanner)

namespace Scanner

open Text.Scanner

/-! ## Blanks and comments -/

/-- Whether the character is a blank within a line. -/
def isBlank (c : Char) : Bool := c == ' ' || c == '\t'

/-- Blanks within a line. -/
def blanks : Scanner Unit := discard (charsWhile isBlank)

/-- The end of a line. -/
def lineEnd : Scanner Unit := either (literally "\n") (literally "\r\n")

/-- Whether the character may stand in a comment or a literal text. -/
def isPlain (c : Char) : Bool := c == '\t' || (' ' ≤ c && c != '\x7f')

/-- A comment. -/
def comment : Scanner Unit := do
  literally "#"
  discard (charsWhile isPlain)

/-- What may stand behind a statement on its line. -/
def trailing : Scanner Unit := do
  blanks
  discard (perhaps comment)
  either lineEnd atEnd

/-- Blanks, comments and line ends, no more than `fuel` of them. -/
def spacing : (fuel : Nat) → Scanner Unit
  | 0 => return ()
  | fuel + 1 => do
    blanks
    match ← perhaps (either (do comment; lineEnd) lineEnd) with
    | some _ => spacing fuel
    | none => return ()

/-! ## Texts -/

/-- A number of hexadecimal digits that name a character. -/
def codePoint (digits : Nat) : Scanner Char := do
  let value ← (Text.hexValue? 0 (← chars digits) : Option Nat)
  if h : value.isValidChar then return Char.ofNatAux value h else failure

/-- What follows the backslash of an escape. -/
def escaped : Scanner Char := do
  match ← anyChar with
  | 'b' => return '\x08'
  | 't' => return '\t'
  | 'n' => return '\n'
  | 'f' => return '\x0c'
  | 'r' => return '\r'
  | '"' => return '"'
  | '\\' => return '\\'
  | 'u' => codePoint 4
  | 'U' => codePoint 8
  | _ => failure

/-- The rest of a text between double quotes. -/
def basicRest : (fuel : Nat) → Scanner (List Char)
  | 0 => failure
  | fuel + 1 => do
    match ← anyChar with
    | '"' => return []
    | '\\' => return (← escaped) :: (← basicRest fuel)
    | c => if isPlain c then return c :: (← basicRest fuel) else failure

/-- The rest of a text between single quotes. -/
def literalRest : Scanner (List Char) := do
  let chars ← charsWhile fun c => isPlain c && c != '\''
  literally "'"
  return chars

/-- A backslash at the end of a line swallows all blanks and line ends after it. -/
def swallow (fuel : Nat) : Scanner Unit := do
  blanks
  lineEnd
  let rec more : Nat → Scanner Unit
    | 0 => return ()
    | fuel + 1 => do
      blanks
      match ← perhaps lineEnd with
      | some _ => more fuel
      | none => return ()
  more fuel

/-- The end of a text of several lines: three quotes, before which up to two more belong to the
text. -/
def closing (quote : Char) : Scanner (List Char) := fun text =>
  let quotes := (text.takeWhile (· == quote)).take 5
  if 3 ≤ quotes.length then some (quotes.drop 3, text.drop quotes.length) else none

/-- The rest of a text between triple double quotes. -/
def basicLinesRest : (fuel : Nat) → Scanner (List Char)
  | 0 => failure
  | fuel + 1 => do
    if let some ending ← perhaps (closing '"') then
      return ending
    if let some _ ← perhaps lineEnd then
      return '\n' :: (← basicLinesRest fuel)
    match ← anyChar with
    | '\\' =>
      match ← perhaps (swallow fuel) with
      | some _ => basicLinesRest fuel
      | none => return (← escaped) :: (← basicLinesRest fuel)
    | c => if isPlain c then return c :: (← basicLinesRest fuel) else failure

/-- The rest of a text between triple single quotes. -/
def literalLinesRest : (fuel : Nat) → Scanner (List Char)
  | 0 => failure
  | fuel + 1 => do
    if let some ending ← perhaps (closing '\'') then
      return ending
    if let some _ ← perhaps lineEnd then
      return '\n' :: (← literalLinesRest fuel)
    let c ← charWhere isPlain
    return c :: (← literalLinesRest fuel)

/-- A text within one line. -/
def lineText (fuel : Nat) : Scanner String := do
  match ← anyChar with
  | '"' => return String.ofList (← basicRest fuel)
  | '\'' => return String.ofList (← literalRest)
  | _ => failure

/-- A text of several lines. A line end right after the opening quotes is not part of it. -/
def linesText (fuel : Nat) : Scanner String := do
  let basic ← either (do literally "\"\"\""; return true) (do literally "'''"; return false)
  discard (perhaps lineEnd)
  return String.ofList (← if basic then basicLinesRest fuel else literalLinesRest fuel)

/-- A text of either sort. -/
def anyText (fuel : Nat) : Scanner String := either (linesText fuel) (lineText fuel)

/-! ## Keys -/

/-- Whether the character may stand in a key without quotes. -/
def isKeyChar (c : Char) : Bool := c.isAlphanum || c == '_' || c == '-'

/-- One part of a key. -/
def simpleKey (fuel : Nat) : Scanner String :=
  either (do return String.ofList (← someChars isKeyChar)) (lineText fuel)

/-- A key of one or more parts. -/
def dottedKey : (fuel : Nat) → Scanner (List String)
  | 0 => failure
  | fuel + 1 => do
    blanks
    let part ← simpleKey fuel
    blanks
    match ← perhaps (literally ".") with
    | some _ => return part :: (← dottedKey fuel)
    | none => return [part]

/-! ## Numbers -/

/-- Digits of a base, with single underscores between them. -/
def digits (isDigit : Char → Bool) : (fuel : Nat) → Scanner (List Char)
  | 0 => failure
  | fuel + 1 => do
    let first ← charWhere isDigit
    match ← perhaps (literally "_") with
    | some _ => return first :: (← digits isDigit fuel)
    | none =>
      match (← get).head? with
      | some c => if isDigit c then return first :: (← digits isDigit fuel) else return [first]
      | none => return [first]

/-- A sign. -/
def sign : Scanner (Option Char) := perhaps (charWhere fun c => c == '+' || c == '-')

/-- The digits of a decimal integer, of which only zero begins with a zero. -/
def decimalDigits (fuel : Nat) : Scanner (List Char) :=
  either (do let zero ← charWhere (· == '0'); return [zero])
    (digits Char.isDigit fuel)

/-- The value of digits of a base up to sixteen. -/
def valueInBase (base : Nat) (found : List Char) : Nat :=
  found.foldl (fun acc c => base * acc + (Text.hexDigit? c).getD 0) 0

/-- An integer of 64 bits. -/
def inRange (value : Int) : Scanner Int64 :=
  if Int64.minValue.toInt ≤ value ∧ value ≤ Int64.maxValue.toInt then return Int64.ofInt value
  else failure

/-- An integer with the mark of its base in front. -/
def basedInteger (mark : String) (base : Nat) (isDigit : Char → Bool) (fuel : Nat) :
    Scanner Int64 := do
  literally mark
  inRange (valueInBase base (← digits isDigit fuel))

/-- An integer. -/
def integer (fuel : Nat) : Scanner Int64 :=
  either (basedInteger "0x" 16 (fun c => (Text.hexDigit? c).isSome) fuel) <|
  either (basedInteger "0o" 8 (fun c => '0' ≤ c && c ≤ '7') fuel) <|
  either (basedInteger "0b" 2 (fun c => c == '0' || c == '1') fuel) do
    let negative := (← sign) == some '-'
    let value : Int := valueInBase 10 (← decimalDigits fuel)
    inRange (if negative then -value else value)

/-- An exponent. -/
def exponent (fuel : Nat) : Scanner Int := do
  discard (charWhere fun c => c == 'e' || c == 'E')
  let negative := (← sign) == some '-'
  let size : Int := valueInBase 10 (← digits Char.isDigit fuel)
  return if negative then -size else size

/-- The digits of a fraction. -/
def fraction (fuel : Nat) : Scanner (List Char) := do
  literally "."
  digits Char.isDigit fuel

/-- A number with a fraction, an exponent or both. One above all doubles is refused. -/
def decimal (negative : Bool) (fuel : Nat) : Scanner Unit := do
  let whole ← decimalDigits fuel
  let (places, power) ←
    match ← perhaps (fraction fuel) with
    | some places => pure (places, (← perhaps (exponent fuel)).getD 0)
    | none => pure ([], ← exponent fuel)
  let units := valueInBase 10 (whole ++ places)
  if Coordinate.ofDecimal negative units (power - places.length) = .infinity then failure

/-- A number with a fraction or an exponent, an infinity or a NaN. -/
def float (fuel : Nat) : Scanner Unit := do
  let negative := (← sign) == some '-'
  either (either (literally "inf") (literally "nan")) (decimal negative fuel)

/-! ## Dates and times -/

/-- A number of decimal digits whose value lies between two bounds. -/
def fixedDigits (count low high : Nat) : Scanner Nat := do
  let value ← (Text.digits? (← chars count) : Option Nat)
  if low ≤ value ∧ value ≤ high then return value else failure

/-- The number of days of a month. -/
def daysIn (year month : Nat) : Nat :=
  if month = 2 then
    if year % 4 = 0 ∧ (year % 100 ≠ 0 ∨ year % 400 = 0) then 29 else 28
  else if month = 4 ∨ month = 6 ∨ month = 9 ∨ month = 11 then 30
  else 31

/-- A day of a year. -/
def day : Scanner Unit := do
  let year ← fixedDigits 4 0 9999
  literally "-"
  let month ← fixedDigits 2 1 12
  literally "-"
  discard (fixedDigits 2 1 (daysIn year month))

/-- A time of a day. -/
def time : Scanner Unit := do
  discard (fixedDigits 2 0 23)
  literally ":"
  discard (fixedDigits 2 0 59)
  literally ":"
  discard (fixedDigits 2 0 60)
  discard (perhaps (do literally "."; discard (someChars Char.isDigit)))

/-- How far a time is from the universal one. -/
def offset : Scanner Unit :=
  either (discard (charWhere fun c => c == 'Z' || c == 'z')) do
    discard (charWhere fun c => c == '+' || c == '-')
    discard (fixedDigits 2 0 23)
    literally ":"
    discard (fixedDigits 2 0 59)

/-- A day, a time, or both. -/
def date : Scanner Unit :=
  either
    (do
      day
      discard (perhaps (do
        discard (charWhere fun c => c == 'T' || c == 't' || c == ' ')
        time
        discard (perhaps offset))))
    time

end Scanner

end Rulebook.Toml
