import RegionCapture.Size
/-!
# Rectangles

Axis-aligned rectangles of source pixels, counted from the top left corner. The right and bottom
edges are outside.
-/

namespace RegionCapture

/-- The pixels `left ≤ x < right`, `top ≤ y < bottom`. -/
structure Rect where
  left : Int
  top : Int
  right : Int
  bottom : Int
  deriving DecidableEq, Repr

namespace Rect

/-- The rectangle without any pixel at the origin. -/
def zero : Rect := ⟨0, 0, 0, 0⟩

/-- The number is a signed one of 32 bits. -/
def inRange (n : Int) : Bool := -0x80000000 ≤ n && n ≤ 0x7fffffff

/-- A number read as a signed one of 32 bits: beyond the range it comes round from the other end. -/
def signed32 (n : Int) : Int := Int.bmod n 0x100000000

/-- Negative when the edges are crossed, unless they are so far apart that the difference comes
round. -/
def width (r : Rect) : Int := signed32 (r.right - r.left)

/-- As the width. -/
def height (r : Rect) : Int := signed32 (r.bottom - r.top)

/-- Width and height as far as they are not negative. -/
def span (r : Rect) : Size := ⟨r.width.toNat, r.height.toNat⟩

/-- No pixel lies inside. -/
def isEmpty (r : Rect) : Bool := r.width ≤ 0 || r.height ≤ 0

/-- The same rectangle with the x and y axes exchanged. -/
def transposed (r : Rect) : Rect := ⟨r.top, r.left, r.bottom, r.right⟩

/-- The rectangle at the origin with the given size; edges are signed 32-bit numbers. -/
def ofSize (s : Size) : Rect := ⟨0, 0, signed32 s.width, signed32 s.height⟩

/-- The crop form `width:height:x:y`. -/
def text (r : Rect) : String :=
  toString r.width ++ ":" ++ toString r.height ++ ":" ++ toString r.left ++ ":" ++ toString r.top

/-- A number in the range is read as it is. -/
theorem signed32_eq {n : Int} (h : inRange n = true) : signed32 n = n := by
  simp only [inRange, Bool.and_eq_true, decide_eq_true_eq] at h
  exact Int.bmod_eq_of_le (by omega) (by omega)

theorem signed32_le (n : Int) : signed32 n ≤ 0x7fffffff := by
  have h : Int.bmod n 0x100000000 < (0x100000000 + 1) / 2 := Int.bmod_lt (by decide)
  unfold signed32
  omega

end Rect

/-- A pixel position, as input events carry it. -/
structure PixelPoint where
  x : Int
  y : Int
  deriving DecidableEq, Repr

end RegionCapture
