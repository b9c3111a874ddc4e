import RegionCapture.Affine
import RegionCapture.Bytes
/-!
# Four by four matrices

Matrices as a drawing program receives them, column by column.
-/

namespace RegionCapture

/-- Four numbers: a column of a matrix, or a homogeneous point. -/
structure Vec4 (L : Type) where
  x : L
  y : L
  z : L
  w : L
  deriving DecidableEq, Repr

/-- A matrix as its four columns. -/
structure Mat4 (L : Type) where
  c0 : Vec4 L
  c1 : Vec4 L
  c2 : Vec4 L
  c3 : Vec4 L
  deriving DecidableEq, Repr

/-- The entries from the top down. -/
def Vec4.entries {L : Type} (v : Vec4 L) : List L := [v.x, v.y, v.z, v.w]

namespace Mat4

variable {L : Type}

/-- The entries column by column. -/
def entries (m : Mat4 L) : List L := m.c0.entries ++ m.c1.entries ++ m.c2.entries ++ m.c3.entries

/-- The matrix with the given entries, column by column. -/
def ofEntries? : List L → Option (Mat4 L)
  | [a0, a1, a2, a3, b0, b1, b2, b3, c0, c1, c2, c3, d0, d1, d2, d3] =>
    some ⟨⟨a0, a1, a2, a3⟩, ⟨b0, b1, b2, b3⟩, ⟨c0, c1, c2, c3⟩, ⟨d0, d1, d2, d3⟩⟩
  | _ => none

/-- The words of a matrix as a buffer holds them: column by column, the lowest byte of each first.
They are words and not numbers, since many words stand for what is no number. -/
def bytes (m : Mat4 UInt32) : List UInt8 := m.entries.flatMap fun word => Bytes.ofNat 4 word.toNat

variable [Scalar L]

/-- Every point stays. -/
def identity : Mat4 L := ⟨⟨1, 0, 0, 0⟩, ⟨0, 1, 0, 0⟩, ⟨0, 0, 1, 0⟩, ⟨0, 0, 0, 1⟩⟩

/-- One row against a column. The sum starts at negative zero, which is neutral among rounded
numbers too. -/
def dot (r0 r1 r2 r3 : L) (v : Vec4 L) : L := -0 + r0 * v.x + r1 * v.y + r2 * v.z + r3 * v.w

/-- The image of a homogeneous point. -/
def apply (m : Mat4 L) (v : Vec4 L) : Vec4 L where
  x := dot m.c0.x m.c1.x m.c2.x m.c3.x v
  y := dot m.c0.y m.c1.y m.c2.y m.c3.y v
  z := dot m.c0.z m.c1.z m.c2.z m.c3.z v
  w := dot m.c0.w m.c1.w m.c2.w m.c3.w v

/-- First `n`, then `m`. -/
def mul (m n : Mat4 L) : Mat4 L := ⟨m.apply n.c0, m.apply n.c1, m.apply n.c2, m.apply n.c3⟩

/-- The first two coordinates of the image of the point `(x, y, 0, 1)`. -/
def applyPoint (m : Mat4 L) (x y : L) : L × L :=
  (m.c0.x * x + m.c1.x * y + m.c3.x, m.c0.y * x + m.c1.y * y + m.c3.y)

end Mat4

/-- A transform of the plane as a homogeneous matrix. -/
def Affine.homogeneous {L : Type} [Scalar L] (m : Affine L) : Mat4 L where
  c0 := ⟨m.a, m.b, 0, 0⟩
  c1 := ⟨m.c, m.d, 0, 0⟩
  c2 := ⟨0, 0, 1, 0⟩
  c3 := ⟨m.e, m.f, 0, 1⟩

/-- The coefficients as coordinates. -/
def Affine.narrow {K L : Type} [Narrowing K L] (m : Affine K) : Affine L :=
  ⟨Narrowing.narrow m.a, Narrowing.narrow m.b, Narrowing.narrow m.c, Narrowing.narrow m.d,
    Narrowing.narrow m.e, Narrowing.narrow m.f⟩

/-- A transform of the plane as a drawing program receives it. -/
def Affine.toMat4 {K L : Type} [Scalar L] [Narrowing K L] (m : Affine K) : Mat4 L :=
  Affine.homogeneous m.narrow

end RegionCapture
