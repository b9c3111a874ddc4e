import Mathlib.Tactic.LinearCombination
import RegionCapture.Proofs.Region.Areas
/-!
# Free rotations

A region need not be square, so what turns its pixels does not turn the unit square: the step of a free
rotation goes through the aspect ratio of the region and through its middle. Counted in pixels it is a
rotation about the middle of the region and nothing else (`tilt_turns`).
-/

namespace RegionCapture

namespace Point

/-- A point rotated about `o` by the angle with cosine `c` and sine `s`, counter-clockwise. -/
def rotateAbout (p : Point) (c s : Rat) (o : Point) : Point :=
  (o.1 + (c * (p.1 - o.1) - s * (p.2 - o.2)), o.2 + (s * (p.1 - o.1) + c * (p.2 - o.2)))

/-- The square of the distance of two points. -/
def sqDist (p q : Point) : Rat := (p.1 - q.1) * (p.1 - q.1) + (p.2 - q.2) * (p.2 - q.2)

/-- Twice the area of a triangle, positive if its corners are given counter-clockwise. -/
def doubleArea (p q t : Point) : Rat := (q.1 - p.1) * (t.2 - p.2) - (q.2 - p.2) * (t.1 - p.1)

theorem rotateAbout_self (c s : Rat) (o : Point) : o.rotateAbout c s o = o := by
  simp [rotateAbout]

variable {c s : Rat}

theorem sqDist_rotateAbout (h : c * c + s * s = 1) (o p q : Point) :
    (p.rotateAbout c s o).sqDist (q.rotateAbout c s o) = p.sqDist q := by
  simp only [sqDist, rotateAbout]
  linear_combination ((p.1 - q.1) * (p.1 - q.1) + (p.2 - q.2) * (p.2 - q.2)) * h

theorem doubleArea_rotateAbout (h : c * c + s * s = 1) (o p q t : Point) :
    (p.rotateAbout c s o).doubleArea (q.rotateAbout c s o) (t.rotateAbout c s o) =
      p.doubleArea q t := by
  simp only [doubleArea, rotateAbout]
  linear_combination ((q.1 - p.1) * (t.2 - p.2) - (q.2 - p.2) * (t.1 - p.1)) * h

end Point

namespace Size

/-- A point of the unit square in pixels, from the bottom left corner. -/
def pixels (size : Size) (p : Point) : Point := (p.1 * size.width, p.2 * size.height)

def middle (size : Size) : Point := ((size.width : Rat) / 2, (size.height : Rat) / 2)

theorem pixels_half (size : Size) : size.pixels (1 / 2, 1 / 2) = size.middle := by
  simp only [pixels, middle, Prod.mk.injEq]
  constructor <;> ring

theorem pixels_injective {size : Size} (h : size.isEmpty = false) :
    Function.Injective size.pixels := by
  obtain ⟨hw, hh⟩ := cast_pos h
  rintro ⟨a, b⟩ ⟨c, d⟩ heq
  simpa [pixels, hw.ne', hh.ne'] using heq

end Size

/-! ## The step -/

namespace Affine

theorem act_rotate [Rotation Rat] {degrees c s : Rat} (h : Rotation.turn degrees = (c, s))
    (p : Point) : (rotate degrees).act p = (c * p.1 - s * p.2, s * p.1 + c * p.2) := by
  simp only [act, apply, rotate, h, Prod.mk.injEq]
  constructor <;> ring

theorem act_inAspect (m : Affine Rat) (ratio : Rat) (p : Point) : (m.inAspect ratio).act p =
    (1 / ratio * (m.act (ratio * p.1, p.2)).1, (m.act (ratio * p.1, p.2)).2) := by
  simp only [inAspect, act_compose, act_scale, one_mul]

theorem act_aboutCenter (m : Affine Rat) (p : Point) : m.aboutCenter.act p =
    ((m.act (p.1 - 1 / 2, p.2 - 1 / 2)).1 + 1 / 2, (m.act (p.1 - 1 / 2, p.2 - 1 / 2)).2 + 1 / 2) := by
  simp only [aboutCenter, act_compose, act_translate, Scalar.half, ← sub_eq_add_neg]

/-- A step is, in pixels of a region, the rotation about its middle by the angle with cosine `c` and sine
`s`: it leaves the middle where it is, and keeps all distances and the sense of rotation. -/
structure RotatesPixels (m : Affine Rat) (size : Size) (c s : Rat) : Prop where
  point : ∀ p, size.pixels (m.act p) = (size.pixels p).rotateAbout c s size.middle
  middle : m.act (1 / 2, 1 / 2) = (1 / 2, 1 / 2)
  distance : ∀ p q, (size.pixels (m.act p)).sqDist (size.pixels (m.act q)) =
    (size.pixels p).sqDist (size.pixels q)
  sense : ∀ p q t, (size.pixels (m.act p)).doubleArea (size.pixels (m.act q)) (size.pixels (m.act t)) =
    (size.pixels p).doubleArea (size.pixels q) (size.pixels t)

end Affine

namespace Region

section

variable [Rotation Rat] {degrees c s : Rat}

theorem pixels_act_tiltStep {size : Size} (h : size.isEmpty = false)
    (hturn : Rotation.turn (-degrees) = (c, s)) (p : Point) :
    size.pixels ((tiltStep size degrees).act p) = (size.pixels p).rotateAbout c s size.middle := by
  obtain ⟨hw, hh⟩ := Size.cast_pos h
  have hratio : (Scalar.ofNat size.width / Scalar.ofNat size.height : Rat) =
    size.width / size.height := rfl
  rw [tiltStep, Affine.act_aboutCenter, Affine.act_inAspect, Affine.act_rotate hturn, hratio]
  -- stretched by the aspect ratio along the first axis, the unit square is the picture, one height high
  simp only [Size.pixels, Size.middle, Point.rotateAbout, Prod.mk.injEq]
  constructor <;> field_simp <;> ring

theorem rotatesPixels_tiltStep {size : Size} (h : size.isEmpty = false)
    (hturn : Rotation.turn (-degrees) = (c, s)) (hcs : c * c + s * s = 1) :
    (tiltStep size degrees).RotatesPixels size c s := by
  have hpoint := pixels_act_tiltStep h hturn
  refine ⟨hpoint, Size.pixels_injective h ?_, fun p q => ?_, fun p q t => ?_⟩
  · rw [hpoint, Size.pixels_half, Point.rotateAbout_self]
  · rw [hpoint, hpoint, Point.sqDist_rotateAbout hcs]
  · rw [hpoint, hpoint, hpoint, Point.doubleArea_rotateAbout hcs]

theorem tilt_eq_append {r : Region Rat} (hr : r.size.isEmpty = false) (hd : degrees ≠ 0) :
    r.tilt degrees = .ok (r.append (tiltStep r.size degrees) r.size) := by
  have hfinite : Coefficient.isFinite degrees = true := rfl
  have hzero : Coefficient.isZero degrees = false := beq_false_of_ne hd
  rw [tilt, hfinite, hzero, hr]
  rfl

/-- A free rotation of a region with pixels succeeds and leaves its size. All steps so far come first, as
they were, and then one that is, in pixels, the rotation about the middle of the region by the opposite
angle. -/
theorem tilt_turns {r : Region Rat} (hr : r.size.isEmpty = false) (hd : degrees ≠ 0)
    (hturn : Rotation.turn (-degrees) = (c, s)) (hcs : c * c + s * s = 1) :
    ∃ (r' : Region Rat) (step : Affine Rat), r.tilt degrees = .ok r' ∧ r'.size = r.size ∧
      r'.transform = some (step.compose r.forward) ∧
      (∀ p, r'.forward.act p = step.act (r.forward.act p)) ∧ step.RotatesPixels r.size c s := by
  have hforward := forward_append r (tiltStep r.size degrees) r.size
  refine ⟨_, tiltStep r.size degrees, tilt_eq_append hr hd, rfl, ?_, fun p => ?_,
    rotatesPixels_tiltStep hr hturn hcs⟩
  · rw [← hforward]
    rfl
  · rw [hforward, Affine.act_compose]

end

/-! ## A slope of three to four -/

/-- Rotations by one angle, clockwise. -/
local instance slopedRotation : Rotation Rat := ⟨fun _ => (4 / 5, -3 / 5)⟩

/-- The right half of a picture of 24 by 8 pixels. -/
def rightHalf : Region Rat := ⟨⟨12, 8⟩, some ⟨2, 0, 0, 1, -1, 0⟩⟩

theorem tilt_turns_sloped : rightHalf.size.isEmpty = false ∧ (30 : Rat) ≠ 0 ∧
    Rotation.turn (-30 : Rat) = (4 / 5, -3 / 5) ∧ (4 / 5 : Rat) * (4 / 5) + -3 / 5 * (-3 / 5) = 1 ∧
    ∃ r', rightHalf.tilt 30 = .ok r' ∧ r'.size = ⟨12, 8⟩ ∧
      (⟨12, 8⟩ : Size).pixels (r'.forward.act (1 / 2, 0)) = (-6 / 5, 22 / 5) := by
  have hfull : rightHalf.size.isEmpty = false := rfl
  have hangle : (30 : Rat) ≠ 0 := by norm_num
  have hturn : Rotation.turn (-30 : Rat) = (4 / 5, -3 / 5) := rfl
  have hcircle : (4 / 5 : Rat) * (4 / 5) + -3 / 5 * (-3 / 5) = 1 := by norm_num
  obtain ⟨r', step, htilt, hsize, -, hafter, hstep⟩ := tilt_turns hfull hangle hturn hcircle
  refine ⟨hfull, hangle, hturn, hcircle, r', htilt, hsize, ?_⟩
  -- the corner of the half is 6 columns and 4 rows away from its middle
  rw [hafter]
  exact (hstep.point _).trans (by decide +kernel)

end Region

end RegionCapture
