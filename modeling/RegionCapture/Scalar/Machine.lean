import RegionCapture.Decimal.Style
import RegionCapture.Scalar
/-!
# Machine numbers

Doubles as coefficients, and single-precision numbers as texture coordinates. Whole parts stay
inside the 32-bit range, signed for positions and unsigned for counts; the whole part of what is no
number is zero.
-/

namespace RegionCapture

instance : Coefficient Float where
  zero := 0
  one := 1
  half := 0.5
  ofInt n := n.toInt64.toFloat
  isZero x := x == 0
  isFinite x := x.isFinite
  truncate x := x.toInt32.toInt
  text := Decimal.plain.text
  entry := Decimal.listed.text

/-- One degree in radians, rounded before it is used. -/
def degree : Float := 3.141592653589793 / 180

instance : Rotation Float where
  turn degrees := ((degrees * degree).cos, (degrees * degree).sin)

instance : Coordinate Float32 where
  zero := 0
  one := 1
  half := 0.5
  ofInt n := n.toInt64.toFloat32
  isUnit x := 0 ≤ x && x ≤ 1
  cell x := x.floor.toUInt32.toNat

instance : Narrowing Float Float32 where
  narrow x := x.toFloat32

end RegionCapture
