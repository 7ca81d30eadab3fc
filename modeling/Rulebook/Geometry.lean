/-!
# Points and boxes

A coordinate is a double of 64 bits and is kept as its bits, so that storing
one and reading it back loses nothing, not even the sign of a zero. Ordering
and arithmetic are those of IEEE 754.
-/

namespace Rulebook

/-- A double of 64 bits, kept as its bits. -/
structure Coordinate where
  bits : UInt64
deriving DecidableEq, Repr

namespace Coordinate

/-- The number that the bits stand for. -/
def toFloat (c : Coordinate) : Float := Float.ofBits c.bits

/-- The coordinate of a number. -/
def ofFloat (x : Float) : Coordinate := ⟨x.toBits⟩

/-- Zero, where a player starts. -/
def zero : Coordinate := ⟨0⟩

instance : Inhabited Coordinate := ⟨zero⟩

/-- Whether the bits stand for no number at all. -/
def isNaN (c : Coordinate) : Bool := c.toFloat.isNaN

/-- Whether the bits stand for a number other than an infinity. -/
def isFinite (c : Coordinate) : Bool := c.toFloat.isFinite

/-- The lesser of two coordinates, the first if neither is. A NaN yields to the other. -/
def least (a b : Coordinate) : Coordinate :=
  if a.isNaN || decide (b.toFloat < a.toFloat) then b else a

/-- The greater of two coordinates, the first if neither is. A NaN yields to the other. -/
def greatest (a b : Coordinate) : Coordinate :=
  if a.isNaN || decide (b.toFloat > a.toFloat) then b else a

/-- Halfway between two coordinates: half of their sum. -/
def midpoint (a b : Coordinate) : Coordinate := ofFloat ((a.toFloat + b.toFloat) / 2)

/-- Whether a coordinate lies between two others, ends included. -/
def isBetween (c low high : Coordinate) : Bool :=
  decide (low.toFloat ≤ c.toFloat) && decide (c.toFloat ≤ high.toFloat)

end Coordinate

/-- A place in the world. -/
structure Point where
  x : Coordinate
  y : Coordinate
  z : Coordinate
deriving DecidableEq, Repr, Inhabited

namespace Point

/-- Where all three coordinates are zero. -/
def origin : Point := ⟨.zero, .zero, .zero⟩

/-- Combines two points axis by axis. -/
def zipWith (f : Coordinate → Coordinate → Coordinate) (a b : Point) : Point :=
  ⟨f a.x b.x, f a.y b.y, f a.z b.z⟩

end Point

/-- A box whose sides follow the axes. -/
structure Bounds where
  /-- The lowest corner. -/
  low : Point
  /-- The highest corner. -/
  high : Point
deriving DecidableEq, Repr

namespace Bounds

/-- The box between two opposite corners, given in any order. -/
def ofCorners (a b : Point) : Bounds :=
  ⟨Point.zipWith Coordinate.least a b, Point.zipWith Coordinate.greatest a b⟩

/-- Whether a point lies in the box, borders included. -/
def contains (box : Bounds) (p : Point) : Bool :=
  p.x.isBetween box.low.x box.high.x && p.y.isBetween box.low.y box.high.y
    && p.z.isBetween box.low.z box.high.z

/-- The middle of the box. -/
def center (box : Bounds) : Point := Point.zipWith Coordinate.midpoint box.low box.high

end Bounds

end Rulebook
