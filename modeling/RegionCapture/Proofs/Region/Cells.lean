import Mathlib.Algebra.Order.Field.Basic
import Mathlib.Tactic.FieldSimp
import Mathlib.Tactic.Linarith
import Mathlib.Tactic.Positivity
import Mathlib.Tactic.Ring
import RegionCapture.Proofs.Affine.Points
import RegionCapture.Proofs.Frame.Views
import RegionCapture.Region
/-!
# Cells of the unit square

A picture lays its pixels over the unit square, the first row at the top: each pixel has a cell, with a
middle. A crop takes a rectangle of cells to the whole unit square (`Region.act_of_cropStep`).
-/

namespace RegionCapture

/-! ## Points -/

namespace Point

/-- The unit square turned clockwise by a quarter turn. -/
def turn (p : Point) : Point := (p.2, 1 - p.1)

/-- The unit square with left and right exchanged. -/
def mirror (p : Point) : Point := (1 - p.1, p.2)

/-- Inside the unit square, and not on its edge. -/
def Inside (p : Point) : Prop := 0 < p.1 ∧ p.1 < 1 ∧ 0 < p.2 ∧ p.2 < 1

end Point

/-- The middle of the cell in column `x` and row `y`, counted from the top. -/
def Size.center (s : Size) (x y : Nat) : Point := ((x + 1 / 2) / s.width, 1 - (y + 1 / 2) / s.height)

namespace Rect

/-- The point lies inside a rectangle of cells, and not on its edge. -/
def Spans (r : Rect) (s : Size) (p : Point) : Prop :=
  r.left < p.1 * s.width ∧ p.1 * s.width < r.right ∧
    r.top < (1 - p.2) * s.height ∧ (1 - p.2) * s.height < r.bottom

theorem cast_toNat {n : Int} (h : 0 ≤ n) : ((n.toNat : Nat) : Rat) = n := by
  exact_mod_cast Int.toNat_of_nonneg h

theorem cast_span {r : Rect} (h : r.span.isEmpty = false) :
    (r.span.width : Rat) = r.width ∧ (r.span.height : Rat) = r.height := by
  obtain ⟨hw, hh⟩ := Size.isEmpty_eq_false_iff.1 h
  exact ⟨cast_toNat (Int.pos_iff_toNat_pos.2 hw).le, cast_toNat (Int.pos_iff_toNat_pos.2 hh).le⟩

theorem cast_extent {r : Rect} (h : r.extent.isEmpty = false) :
    (r.extent.width : Rat) = r.right - r.left ∧ (r.extent.height : Rat) = r.bottom - r.top := by
  obtain ⟨hw, hh⟩ := Size.isEmpty_eq_false_iff.1 h
  rw [← Int.cast_sub, ← Int.cast_sub]
  exact ⟨cast_toNat (Int.pos_iff_toNat_pos.2 hw).le, cast_toNat (Int.pos_iff_toNat_pos.2 hh).le⟩

end Rect

namespace Size

variable {s : Size} {x y c q : Nat}

theorem cast_pos (h : s.isEmpty = false) : (0 : Rat) < s.width ∧ (0 : Rat) < s.height := by
  rw [isEmpty_eq_false_iff] at h
  exact_mod_cast h

theorem center_inj (h : s.isEmpty = false) : s.center x y = s.center c q ↔ x = c ∧ y = q := by
  obtain ⟨hw, hh⟩ := cast_pos h
  simp only [center, Prod.mk.injEq, sub_right_inj, div_left_inj' hw.ne', div_left_inj' hh.ne',
    add_left_inj, Nat.cast_inj]

theorem spans_center (h : s.isEmpty = false) : (Rect.cell x y).Spans s (s.center x y) := by
  obtain ⟨hw, hh⟩ := cast_pos h
  have hx : ((x : Rat) + 1 / 2) / s.width * s.width = x + 1 / 2 := div_mul_cancel₀ _ hw.ne'
  have hy : ((y : Rat) + 1 / 2) / s.height * s.height = y + 1 / 2 := div_mul_cancel₀ _ hh.ne'
  simp only [Rect.Spans, Rect.cell, center, sub_sub_cancel, hx, hy]
  push_cast
  refine ⟨?_, ?_, ?_, ?_⟩ <;> linarith

theorem inside_center (hx : x < s.width) (hy : y < s.height) : (s.center x y).Inside := by
  have hw : (0 : Rat) < s.width := by exact_mod_cast Nat.zero_lt_of_lt hx
  have hh : (0 : Rat) < s.height := by exact_mod_cast Nat.zero_lt_of_lt hy
  have hx' : (x : Rat) + 1 ≤ s.width := by exact_mod_cast hx
  have hy' : (y : Rat) + 1 ≤ s.height := by exact_mod_cast hy
  have hx1 : ((x : Rat) + 1 / 2) / s.width < 1 := by rw [div_lt_one hw]; linarith
  have hy1 : ((y : Rat) + 1 / 2) / s.height < 1 := by rw [div_lt_one hh]; linarith
  have hx0 : 0 < ((x : Rat) + 1 / 2) / s.width := by positivity
  have hy0 : 0 < ((y : Rat) + 1 / 2) / s.height := by positivity
  exact ⟨hx0, hx1, by simp only [center]; linarith, by simp only [center]; linarith⟩

theorem cast_last_sub {n i : Nat} (h : i < n) : ((n - 1 - i : Nat) : Rat) = n - 1 - i := by
  rw [Nat.cast_sub (by omega), Nat.cast_sub (by omega), Nat.cast_one]

/-- The middle of a cell whose row counts from the bottom. -/
theorem center_up (hy : y < s.height) :
    s.center x (s.height - 1 - y) = (((x : Rat) + 1 / 2) / s.width, ((y : Rat) + 1 / 2) / s.height) := by
  have hh : (s.height : Rat) ≠ 0 := by exact_mod_cast (Nat.zero_lt_of_lt hy).ne'
  simp only [center, cast_last_sub hy, Prod.mk.injEq, true_and]
  field_simp
  ring

end Size

/-! ## Crops -/

namespace Region

variable {s : Size} {r : Rect} {step : Affine Rat}

/-- Only a source with pixels can be cropped to something with pixels. -/
theorem full_of_cropStep (h : cropStep s r = .ok step) : s.isEmpty = false := by
  obtain ⟨⟨hw, hh⟩, -⟩ := Affine.ontoUnitSquare_eq_ok_iff.1 h
  have hw' : (s.width : Rat) ≠ 0 := (div_ne_zero_iff.1 hw).2
  have hh' : (s.height : Rat) ≠ 0 := (div_ne_zero_iff.1 hh).2
  rw [Size.isEmpty_eq_false_iff]
  exact ⟨Nat.pos_of_ne_zero (Nat.cast_ne_zero.1 hw'), Nat.pos_of_ne_zero (Nat.cast_ne_zero.1 hh')⟩

/-- Where a crop takes a point: the rectangle becomes the unit square. -/
theorem act_of_cropStep (he : r.Exact) (h : cropStep s r = .ok step) (p : Point) :
    step.act p = ((p.1 * s.width - r.left) / ((r.right : Rat) - r.left),
      1 - ((1 - p.2) * s.height - r.top) / ((r.bottom : Rat) - r.top)) := by
  obtain ⟨hW, hH⟩ := Size.cast_pos (full_of_cropStep h)
  obtain ⟨⟨hw, hh⟩, rfl⟩ := Affine.ontoUnitSquare_eq_ok_iff.1 h
  have hwidth : (r.width : Rat) = r.right - r.left := by
    rw [Rect.width, Rect.signed32_eq he.1, Int.cast_sub]
  have hheight : (r.height : Rat) = r.bottom - r.top := by
    rw [Rect.height, Rect.signed32_eq he.2, Int.cast_sub]
  have hw' : (r.right : Rat) - r.left ≠ 0 := hwidth ▸ (div_ne_zero_iff.1 hw).1
  have hh' : (r.bottom : Rat) - r.top ≠ 0 := hheight ▸ (div_ne_zero_iff.1 hh).1
  simp only [Affine.act_compose, Affine.act_scale, Affine.act_translate, Scalar.ofNat, Scalar.ofInt,
    Int.cast_natCast, hwidth, hheight, Prod.mk.injEq]
  constructor
  · field_simp
    ring
  · field_simp
    ring

end Region

end RegionCapture
