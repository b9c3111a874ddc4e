import RegionCapture.Fault
import RegionCapture.Scalar
/-!
# Affine transforms of the plane

The transform with coefficients `a b c d e f` sends `(x, y)` to `(a x + c y + e, b x + d y + f)`.
Normalized coordinates put `(0, 0)` at the bottom left corner of the unit square and `(1, 1)` at the
top right one; pixel coordinates start at the top left.
-/

namespace RegionCapture

/-- A transform `(x, y) ↦ (a x + c y + e, b x + d y + f)`. -/
structure Affine (K : Type) where
  a : K
  b : K
  c : K
  d : K
  e : K
  f : K
  deriving DecidableEq, Repr

namespace Affine

variable {K : Type}

/-- The coefficients in order. -/
def coefficients (m : Affine K) : List K := [m.a, m.b, m.c, m.d, m.e, m.f]

section Scalar

variable [Scalar K]

/-- Every point stays. -/
def identity : Affine K := ⟨1, 0, 0, 1, 0, 0⟩

/-- First `n`, then `m`. -/
def compose (m n : Affine K) : Affine K where
  a := m.a * n.a + m.c * n.b
  b := m.b * n.a + m.d * n.b
  c := m.a * n.c + m.c * n.d
  d := m.b * n.c + m.d * n.d
  e := m.a * n.e + m.c * n.f + m.e
  f := m.b * n.e + m.d * n.f + m.f

/-- The image of a point. -/
def apply (m : Affine K) (x y : K) : K × K := (m.a * x + m.c * y + m.e, m.b * x + m.d * y + m.f)

/-- By what factor areas grow; negative if the plane is turned over. -/
def determinant (m : Affine K) : K := m.a * m.d - m.b * m.c

/-- The transform that undoes `m`, if the determinant allows one. -/
def adjugate (m : Affine K) : Affine K :=
  let i : K := 1 / m.determinant
  { a := i * m.d
    b := -i * m.b
    c := -i * m.c
    d := i * m.a
    e := i * (m.c * m.f - m.d * m.e)
    f := i * (m.b * m.e - m.a * m.f) }

/-- A shift. -/
def translate (x y : K) : Affine K := ⟨1, 0, 0, 1, x, y⟩

/-- A scaling of the two axes. -/
def scale (x y : K) : Affine K := ⟨x, 0, 0, y, 0, 0⟩

/-- The unit square mirrored left to right. -/
def mirrorX : Affine K := ⟨-1, 0, 0, 1, 1, 0⟩

/-- The unit square mirrored top to bottom. -/
def mirrorY : Affine K := ⟨1, 0, 0, -1, 0, 1⟩

/-- `m` acting on a space of the given aspect ratio (width over height) instead of a square one. -/
def inAspect (m : Affine K) (ratio : K) : Affine K :=
  ((scale (1 / ratio) 1).compose m).compose (scale ratio 1)

/-- `m` acting around the middle of the unit square instead of its corner. -/
def aboutCenter (m : Affine K) : Affine K :=
  ((translate Scalar.half Scalar.half).compose m).compose (translate (-Scalar.half) (-Scalar.half))

/-- From pixels to normalized coordinates. -/
def ofPixels (s : Size) : Affine K :=
  ⟨1 / Scalar.ofNat s.width, 0, 0, -1 / Scalar.ofNat s.height, 0, 1⟩

/-- From normalized coordinates to pixels. -/
def toPixels (s : Size) : Affine K :=
  ⟨Scalar.ofNat s.width, 0, 0, -Scalar.ofNat s.height, 0, Scalar.ofNat s.height⟩

/-- The unit square turned counter-clockwise by quarter turns. -/
def quarterTurns : Nat → Except Fault (Affine K)
  | 0 => .ok identity
  | 1 => .ok ⟨0, 1, -1, 0, 1, 0⟩
  | 2 => .ok ⟨-1, 0, 0, -1, 1, 1⟩
  | 3 => .ok ⟨0, -1, 1, 0, 0, 1⟩
  | n => .error (.quarterTurns n)

/-- A counter-clockwise rotation about the origin, in degrees. -/
def rotate [Rotation K] (degrees : K) : Affine K :=
  let (cos, sin) := Rotation.turn degrees
  ⟨cos, sin, -sin, cos, 0, 0⟩

end Scalar

section Coefficient

variable [Coefficient K]

/-- No coefficient is infinite or undefined. -/
def isFinite (m : Affine K) : Bool := m.coefficients.all Coefficient.isFinite

/-- The coefficients as a message shows them. -/
def text (m : Affine K) : String :=
  "[" ++ ", ".intercalate (m.coefficients.map Coefficient.entry) ++ "]"

/-- The transform that undoes `m`. A transform that flattens the plane, or one whose inverse leaves
the range of the numbers, has none. -/
def inverse (m : Affine K) : Except Fault (Affine K) :=
  let det := m.determinant
  if Coefficient.isZero det || !Coefficient.isFinite det then
    .error (.singular (Coefficient.text det) m.text)
  else if !m.adjugate.isFinite then .error (.unboundedInverse m.text)
  else .ok m.adjugate

/-- Sends the rectangle with corner `(x, y)` and sides `w` and `h` onto the unit square. -/
def ontoUnitSquare (x y w h : K) : Except Fault (Affine K) :=
  if Coefficient.isZero w || Coefficient.isZero h then
    .error (.emptyArea (Coefficient.text w) (Coefficient.text h))
  else .ok ((scale (1 / w) (1 / h)).compose (translate (-x) (-y)))

/-- The image of a pixel position, truncated toward zero. -/
def applyPixel (m : Affine K) (p : PixelPoint) : PixelPoint :=
  let (x, y) := m.apply (Scalar.ofInt p.x) (Scalar.ofInt p.y)
  ⟨Coefficient.truncate x, Coefficient.truncate y⟩

end Coefficient

end Affine

end RegionCapture
