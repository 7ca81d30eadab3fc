/-!
# Integers of a script

Scripts compute with signed integers of 64 bits. A sum or difference that
leaves their range stops at its nearer end, so that no script can overflow.
-/

namespace Rulebook

/-- The numbers of 32 bits are those below this one. -/
def limit32 : Nat := 0x100000000

/-- The numbers of 64 bits are those below this one. -/
def limit64 : Nat := 0x10000000000000000

/-- The integer of 64 bits nearest to `n`. -/
def saturate (n : Int) : Int64 :=
  if n < Int64.minValue.toInt then Int64.minValue
  else if Int64.maxValue.toInt < n then Int64.maxValue
  else Int64.ofInt n

/-- The sum, stopped at the ends of the range. -/
def saturatingAdd (a b : Int64) : Int64 := saturate (a.toInt + b.toInt)

/-- The difference, stopped at the ends of the range. -/
def saturatingSub (a b : Int64) : Int64 := saturate (a.toInt - b.toInt)

/-- An integer in decimal. -/
def integerText (n : Int64) : String := toString n.toInt

end Rulebook
