/-!
# Decimal numbers

Whole numbers are written in decimal without leading zeros. They are read
with an optional sign and any number of leading zeros, and refused when they
leave the range asked for.
-/

namespace Rulebook.Text

/-- The value of a digit. -/
def digit? (c : Char) : Option Nat :=
  if '0' ≤ c ∧ c ≤ '9' then some (c.toNat - '0'.toNat) else none

/-- The number a digit string continues `acc` to. -/
def digitsFrom? (acc : Nat) : List Char → Option Nat
  | [] => some acc
  | c :: rest => do digitsFrom? (10 * acc + (← digit? c)) rest

/-- The value of a non-empty digit string. -/
def digits? : List Char → Option Nat
  | [] => none
  | c :: rest => digitsFrom? 0 (c :: rest)

/-- Reads a natural number below `bound`; a plus sign may precede it. -/
def natBelow? (bound : Nat) (text : List Char) : Option Nat := do
  let value ← match text with
    | '+' :: rest => digits? rest
    | digits => digits? digits
  if value < bound then some value else none

/-- Reads an integer; a plus or a minus sign may precede it. -/
def int? : List Char → Option Int
  | '+' :: rest => (digits? rest).map fun n => (n : Int)
  | '-' :: rest => (digits? rest).map fun n => -(n : Int)
  | digits => (digits? digits).map fun n => (n : Int)

/-- Reads an integer of 64 bits. -/
def int64? (text : List Char) : Option Int64 := do
  let value ← int? text
  if Int64.minValue.toInt ≤ value ∧ value ≤ Int64.maxValue.toInt then
    some (Int64.ofInt value)
  else none

end Rulebook.Text
