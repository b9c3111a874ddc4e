import RegionCapture.Proofs.Region.Cells
/-!
# Pixel coordinates

Normalized coordinates and pixel coordinates of a picture, as maps of points. Pixel coordinates start at
the top left corner; where there are pixels, the two maps undo each other.
-/

namespace RegionCapture

namespace Affine

theorem act_toPixels (s : Size) (p : Point) :
    (toPixels s).act p = (s.width * p.1, s.height * (1 - p.2)) := by
  simp only [act, apply, toPixels, Scalar.ofNat, Scalar.ofInt, Int.cast_natCast, Prod.mk.injEq]
  constructor <;> ring

theorem act_ofPixels (s : Size) (p : Point) :
    (ofPixels s).act p = (p.1 / s.width, 1 - p.2 / s.height) := by
  simp only [act, apply, ofPixels, Scalar.ofNat, Scalar.ofInt, Int.cast_natCast, Prod.mk.injEq]
  constructor <;> ring

/-- The middle of a pixel is the middle of its cell. -/
theorem act_ofPixels_center (s : Size) (x y : Nat) :
    (ofPixels s).act (x + 1 / 2, y + 1 / 2) = s.center x y :=
  act_ofPixels s _

theorem toPixels_injective {s : Size} (h : s.isEmpty = false) :
    Function.Injective (toPixels s : Affine Rat).act := by
  obtain ⟨hw, hh⟩ := Size.cast_pos h
  rintro ⟨a, b⟩ ⟨c, d⟩ heq
  simpa [act_toPixels, hw.ne', hh.ne'] using heq

theorem toPixels_ofPixels {s : Size} (h : s.isEmpty = false) (p : Point) :
    (toPixels s).act ((ofPixels s).act p) = p := by
  obtain ⟨hw, hh⟩ := Size.cast_pos h
  rw [act_ofPixels, act_toPixels, Prod.ext_iff]
  constructor
  · exact mul_div_cancel₀ _ hw.ne'
  · simp only [sub_sub_cancel]
    exact mul_div_cancel₀ _ hh.ne'

theorem ofPixels_toPixels {s : Size} (h : s.isEmpty = false) (p : Point) :
    (ofPixels s).act ((toPixels s).act p) = p :=
  toPixels_injective h (toPixels_ofPixels h _)

end Affine

/-- A whole number is its own whole part. -/
theorem truncateRat_intCast (n : Int) : truncateRat n = n := by
  unfold truncateRat
  rw [Rat.num_intCast, Rat.den_intCast]
  exact Int.tdiv_one n

/-- A pixel that goes to whole numbers goes to a pixel. -/
theorem Affine.applyPixel_eq {m : Affine Rat} {p : PixelPoint} {c q : Int}
    (h : m.act ((p.x : Rat), (p.y : Rat)) = ((c : Rat), (q : Rat))) : m.applyPixel p = ⟨c, q⟩ := by
  have happly : m.apply (Scalar.ofInt p.x) (Scalar.ofInt p.y) = ((c : Rat), (q : Rat)) := h
  rw [applyPixel, happly]
  exact congrArg₂ PixelPoint.mk (truncateRat_intCast c) (truncateRat_intCast q)

end RegionCapture
