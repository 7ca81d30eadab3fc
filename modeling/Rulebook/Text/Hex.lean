/-!
# Hexadecimal digits

Sixteen digits, read in either case and written in lower case.
-/

namespace Rulebook.Text

/-- The value of a hexadecimal digit of either case. -/
def hexDigit? (c : Char) : Option Nat :=
  if '0' ≤ c ∧ c ≤ '9' then some (c.toNat - '0'.toNat)
  else if 'a' ≤ c ∧ c ≤ 'f' then some (c.toNat - 'a'.toNat + 10)
  else if 'A' ≤ c ∧ c ≤ 'F' then some (c.toNat - 'A'.toNat + 10)
  else none

/-- The digit of a value below sixteen. -/
def hexDigit (value : Nat) : Char := Nat.digitChar (value % 16)

/-- The lowest `count` digits of a number, most significant first. -/
def hexDigits (value : Nat) : (count : Nat) → List Char
  | 0 => []
  | count + 1 => hexDigits (value / 16) count ++ [hexDigit value]

/-- A number in hexadecimal without leading zeros. -/
def hex (value : Nat) : List Char := Nat.toDigits 16 value

/-- Bytes as pairs of digits. -/
def ofBytes (bytes : List UInt8) : List Char := bytes.flatMap fun byte => hexDigits byte.toNat 2

/-- Reads pairs of digits as bytes. -/
def bytes? : List Char → Option (List UInt8)
  | [] => some []
  | [_] => none
  | high :: low :: rest => do
    let value := 16 * (← hexDigit? high) + (← hexDigit? low)
    return UInt8.ofNat value :: (← bytes? rest)

/-- The value of a string of hexadecimal digits, continuing `acc`. -/
def hexValue? (acc : Nat) : List Char → Option Nat
  | [] => some acc
  | c :: rest => do hexValue? (16 * acc + (← hexDigit? c)) rest

end Rulebook.Text
