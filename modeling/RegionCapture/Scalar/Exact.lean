import RegionCapture.Scalar
/-!
# Exact numbers

Rational numbers as scalars. Over them every formula of the geometry means what it says, without
rounding. Angles are left open: any cosine and sine will do.
-/

namespace RegionCapture

/-- The whole part of a fraction, toward zero. -/
def truncateRat (q : Rat) : Int := q.num.tdiv q.den

instance : Coefficient Rat where
  zero := 0
  one := 1
  half := 1 / 2
  ofInt n := n
  isZero q := q == 0
  isFinite _ := true
  truncate := truncateRat
  text := toString
  entry := toString

instance : Coordinate Rat where
  half := 1 / 2
  ofInt n := n
  isUnit q := 0 ≤ q && q ≤ 1
  cell q := q.floor.toNat

instance : Narrowing Rat Rat where
  narrow q := q

namespace Straight

/-- Rotations where no angle but zero is asked for. -/
scoped instance rotation : Rotation Rat := ⟨fun _ => (1, 0)⟩

end Straight

end RegionCapture
