import Rulebook.Geometry

/-!
# Decimal coordinates

The coordinate that a decimal number stands for: the double nearest to it, and
of two that are equally near the one with an even last bit. The number is a
quotient of natural numbers here, so nothing is lost before the one rounding.
-/

namespace Rulebook

namespace Coordinate

/-- The quotient of two numbers, rounded to the nearest number, a half to the even one. -/
def divideToEven (numerator denominator : Nat) : Nat :=
  let quotient := numerator / denominator
  let twice := 2 * (numerator % denominator)
  if twice < denominator then quotient
  else if denominator < twice then quotient + 1
  else quotient + quotient % 2

/-- The quotient of two numbers in units of `2 ^ exponent`. -/
def inUnits (numerator denominator : Nat) (exponent : Int) : Nat :=
  if 0 ≤ exponent then divideToEven numerator (denominator <<< exponent.toNat)
  else divideToEven (numerator <<< (-exponent).toNat) denominator

/-- The exponent of the greatest power of two that is not above the quotient of two numbers
other than zero. -/
def floorLog2 (numerator denominator : Nat) : Int :=
  let estimate : Int := (numerator.log2 : Int) - (denominator.log2 : Int)
  let fits :=
    if 0 ≤ estimate then decide (denominator <<< estimate.toNat ≤ numerator)
    else decide (denominator ≤ numerator <<< (-estimate).toNat)
  if fits then estimate else estimate - 1

/-- The bits of an infinity without its sign. -/
def infinityBits : Nat := 0x7FF0000000000000

/-- The bits of the double nearest to a quotient, without its sign. -/
def magnitudeBits (numerator denominator : Nat) : Nat :=
  if numerator = 0 then 0
  else
    let exponent := max (floorLog2 numerator denominator - 52) (-1074)
    let units := inUnits numerator denominator exponent
    min (((exponent + 1074).toNat <<< 52) + units) infinityBits

/-- The bit of a negative sign. -/
def signBit : Nat := 0x8000000000000000

/-- Powers of ten above this one lie beyond all doubles, and those below its inverse round to
zero. -/
def maxPower : Nat := 400

/-- The bits of the double nearest to a number of units of a power of ten, without its sign. Far
beyond the doubles nothing has to be computed. -/
def decimalBits (units : Nat) (exponent : Int) : Nat :=
  if units = 0 then 0
  else if (maxPower : Int) < exponent then infinityBits
  else if exponent < -((maxPower + units.log2 : Nat) : Int) then 0
  else if 0 ≤ exponent then magnitudeBits (units * Nat.pow 10 exponent.toNat) 1
  else magnitudeBits units (Nat.pow 10 (-exponent).toNat)

/-- The coordinate of a number of units of a power of ten. -/
def ofDecimal (negative : Bool) (units : Nat) (exponent : Int) : Coordinate :=
  let bits := decimalBits units exponent
  ⟨UInt64.ofNat (if negative then signBit + bits else bits)⟩

/-- Positive infinity. -/
def infinity : Coordinate := ⟨UInt64.ofNat infinityBits⟩

/-- The coordinate of an integer. -/
def ofInt (n : Int) : Coordinate := ofDecimal (n < 0) n.natAbs 0

end Coordinate

end Rulebook
