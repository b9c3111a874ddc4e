/-!
# Scalars

The geometry of a capture is written once, over whatever numbers it is given. `Scalar` is plain
arithmetic without laws, so that rounded numbers are scalars too. Transforms need a little more of
their coefficients (`Coefficient`, `Rotation`), and sampling a little more of texture coordinates
(`Coordinate`); `Narrowing` takes the first to the second.
-/

namespace RegionCapture

/-- Numbers with the four operations, in which every formula keeps its order of evaluation. -/
class Scalar (K : Type) extends Add K, Sub K, Mul K, Div K, Neg K, Zero K, One K where
  /-- One half. -/
  half : K
  /-- The nearest number to a whole one. -/
  ofInt : Int → K

/-- The coefficients of a transform of the plane. -/
class Coefficient (K : Type) extends Scalar K where
  /-- Equal to zero, of either sign. -/
  isZero : K → Bool
  /-- Neither infinite nor undefined. -/
  isFinite : K → Bool
  /-- The whole part, toward zero, as far as a pixel position can hold it. -/
  truncate : K → Int
  /-- How a message shows a number by itself. -/
  text : K → String
  /-- How a message shows a number in a list. -/
  entry : K → String

/-- Angles. -/
class Rotation (K : Type) where
  /-- Cosine and sine of an angle in degrees. -/
  turn : K → K × K

/-- Coordinates on a texture. -/
class Coordinate (L : Type) extends Scalar L where
  /-- From zero to one, both included. -/
  isUnit : L → Bool
  /-- The whole part from below, zero for everything negative, as far as a pixel count can hold
  it. -/
  cell : L → Nat

/-- Coefficients as the coordinates that they are uploaded as. -/
class Narrowing (K : Type) (L : outParam Type) where
  narrow : K → L

/-- The nearest number to a natural one. -/
def Scalar.ofNat {K : Type} [Scalar K] (n : Nat) : K := Scalar.ofInt (n : Int)

end RegionCapture
