import Mathlib.Tactic.FieldSimp
import Mathlib.Tactic.Linarith
import Mathlib.Tactic.Ring
import RegionCapture.Matrix
import RegionCapture.Scalar.Exact
/-!
# Transforms as maps of points

Over exact numbers a transform of the plane is a map of points (`Affine.act`). Composing transforms
composes the maps, the inverse undoes the map from either side, and a matrix that a transform is
multiplied into acts after it.
-/

namespace RegionCapture

/-- A point of the plane. -/
abbrev Point := Rat × Rat

namespace Affine

/-- Where a transform takes a point. -/
def act (m : Affine Rat) (p : Point) : Point := m.apply p.1 p.2

@[simp] theorem act_identity (p : Point) : (identity : Affine Rat).act p = p := by
  simp only [act, apply, identity, Prod.ext_iff]
  constructor <;> ring

@[simp] theorem act_compose (m n : Affine Rat) (p : Point) :
    (m.compose n).act p = m.act (n.act p) := by
  simp only [act, apply, compose, Prod.mk.injEq]
  constructor <;> ring

theorem act_translate (x y : Rat) (p : Point) : (translate x y).act p = (p.1 + x, p.2 + y) := by
  simp only [act, apply, translate, Prod.mk.injEq]
  constructor <;> ring

theorem act_scale (x y : Rat) (p : Point) : (scale x y).act p = (x * p.1, y * p.2) := by
  simp only [act, apply, scale, Prod.mk.injEq]
  constructor <;> ring

theorem act_mirrorX (p : Point) : (mirrorX : Affine Rat).act p = (1 - p.1, p.2) := by
  simp only [act, apply, mirrorX, Prod.mk.injEq]
  constructor <;> ring

theorem act_mirrorY (p : Point) : (mirrorY : Affine Rat).act p = (p.1, 1 - p.2) := by
  simp only [act, apply, mirrorY, Prod.mk.injEq]
  constructor <;> ring

/-! ## Inverses -/

theorem act_adjugate_act {m : Affine Rat} (h : m.determinant ≠ 0) (p : Point) :
    m.adjugate.act (m.act p) = p := by
  unfold determinant at h
  simp only [act, apply, adjugate, determinant, Prod.ext_iff]
  constructor <;> field_simp <;> ring

theorem act_act_adjugate {m : Affine Rat} (h : m.determinant ≠ 0) (p : Point) :
    m.act (m.adjugate.act p) = p := by
  unfold determinant at h
  simp only [act, apply, adjugate, determinant, Prod.ext_iff]
  constructor <;> field_simp <;> ring

/-- A transform has an inverse exactly if its determinant is not zero. -/
theorem inverse_eq_ok_iff {m n : Affine Rat} :
    m.inverse = .ok n ↔ m.determinant ≠ 0 ∧ n = m.adjugate := by
  have hz : Coefficient.isZero m.determinant = (m.determinant == 0) := rfl
  have hd : Coefficient.isFinite m.determinant = true := rfl
  have hf : m.adjugate.isFinite = true := rfl
  simp only [inverse, hz, hd, hf]
  by_cases h : m.determinant = 0
  · simp [h]
  · simp only [h, beq_iff_eq, Bool.not_true, Bool.or_false, Bool.false_eq_true, if_false,
      Except.ok.injEq, ne_eq, not_false_eq_true, true_and]
    exact eq_comm

theorem act_inverse_act {m n : Affine Rat} (h : m.inverse = .ok n) (p : Point) :
    n.act (m.act p) = p := by
  obtain ⟨hd, rfl⟩ := inverse_eq_ok_iff.1 h
  exact act_adjugate_act hd p

theorem act_act_inverse {m n : Affine Rat} (h : m.inverse = .ok n) (p : Point) :
    m.act (n.act p) = p := by
  obtain ⟨hd, rfl⟩ := inverse_eq_ok_iff.1 h
  exact act_act_adjugate hd p

/-! ## Rectangles -/

/-- A rectangle can be moved onto the unit square exactly if neither of its sides is zero. -/
theorem ontoUnitSquare_eq_ok_iff {x y w h : Rat} {m : Affine Rat} :
    ontoUnitSquare x y w h = .ok m ↔
      (w ≠ 0 ∧ h ≠ 0) ∧ (scale (1 / w) (1 / h)).compose (translate (-x) (-y)) = m := by
  have hz : ∀ q : Rat, Coefficient.isZero q = (q == 0) := fun _ => rfl
  simp only [ontoUnitSquare, hz]
  by_cases hw : w = 0
  · simp [hw]
  by_cases hh : h = 0
  · simp [hh]
  · simp [hw, hh]

/-! ## Matrices -/

theorem applyPoint_homogeneous (m : Affine Rat) (p : Point) :
    m.homogeneous.applyPoint p.1 p.2 = m.act p := rfl

/-- A matrix that a transform is multiplied into acts after it. -/
theorem applyPoint_mul_homogeneous (t : Mat4 Rat) (m : Affine Rat) (p : Point) :
    (t.mul m.homogeneous).applyPoint p.1 p.2 = t.applyPoint (m.act p).1 (m.act p).2 := by
  simp only [Mat4.applyPoint, Mat4.mul, Mat4.apply, Mat4.dot, homogeneous, act, apply, Prod.mk.injEq]
  constructor <;> ring

end Affine

end RegionCapture
