import Rulebook.Text.Hex

/-!
# Universally unique identifiers

A region that several scenarios share carries an identifier of 128 bits. It is
written as 32 hexadecimal digits in groups of 8, 4, 4, 4 and 12 joined by
hyphens. It is read in that form, without hyphens, between braces, or after
`urn:uuid:`, with letters of either case.
-/

namespace Rulebook

/-- An identifier of 128 bits, most significant first. -/
structure Uuid where
  value : BitVec 128
deriving DecidableEq, Repr

namespace Uuid

/-- The 32 digits of an identifier. -/
def digits (id : Uuid) : List Char := Text.hexDigits id.value.toNat 32

/-- Puts hyphens between the groups of digits. -/
def hyphenate (digits : List Char) : List Char :=
  digits.take 8 ++ '-' :: (digits.drop 8).take 4 ++ '-' :: (digits.drop 12).take 4
    ++ '-' :: (digits.drop 16).take 4 ++ '-' :: digits.drop 20

/-- The identifier as it is written. -/
def text (id : Uuid) : String := String.ofList (hyphenate id.digits)

/-- Reads exactly 32 digits. -/
def ofDigits? (digits : List Char) : Option Uuid :=
  if digits.length = 32 then (Text.hexValue? 0 digits).map fun n => ⟨BitVec.ofNat 128 n⟩
  else none

/-- Reads 36 characters with hyphens between the groups. -/
def ofHyphenated? (text : List Char) : Option Uuid :=
  let digits := text.take 8 ++ (text.drop 9).take 4 ++ (text.drop 14).take 4
    ++ (text.drop 19).take 4 ++ text.drop 24
  if text.length = 36 ∧ hyphenate digits = text then ofDigits? digits else none

/-- What an identifier may follow, in letters of either case. -/
def urnMark : List Char := "urn:uuid:".toList

/-- Reads an identifier in any of its forms. -/
def parse? (text : String) : Option Uuid :=
  let chars := text.toList
  if chars.length = 32 then ofDigits? chars
  else if chars.head? = some '{' ∧ chars.getLast? = some '}' then
    ofHyphenated? chars.tail.dropLast
  else if (chars.take 9).map Char.toLower = urnMark then ofHyphenated? (chars.drop 9)
  else ofHyphenated? chars

/-- The sixteen bytes, most significant first. -/
def bytes (id : Uuid) : List UInt8 :=
  (List.range 16).map fun i => UInt8.ofNat (id.value.toNat >>> (8 * (15 - i)))

/-- The identifier of sixteen bytes. -/
def ofBytes (bytes : List UInt8) : Uuid :=
  ⟨BitVec.ofNat 128 (bytes.foldl (fun acc b => 256 * acc + b.toNat) 0)⟩

/-- The version an identifier declares. -/
def version (id : Uuid) : Nat := (id.value.toNat >>> 76) % 16

/-- A random identifier made of the given bits: version 4, with the standard variant. -/
def ofRandomBits (bits : BitVec 128) : Uuid :=
  ⟨((bits &&& ~~~(0xF#128 <<< 76)) ||| (4#128 <<< 76)) &&& ~~~(3#128 <<< 62) ||| (2#128 <<< 62)⟩

end Uuid

end Rulebook
