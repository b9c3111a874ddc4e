import RegionCapture.Proofs.Affine.Points
import RegionCapture.Proofs.Rasterizer.Scanning
/-!
# Texture coordinates

A drawing program multiplies the texture matrix, the matrix of the region and a homogeneous point, and
takes the first two coordinates. The rasterizer multiplies the two matrices once for each quad and then
reads six entries of the product. Over exact numbers both come to the same coordinates, and to those of the
texture matrix at the point that the transform of the region leads to (`draw_coordinates`).
-/

namespace RegionCapture

/-- A point of the plane as a homogeneous one. -/
def Point.homogeneous (p : Point) : Vec4 Rat := ⟨p.1, p.2, 0, 1⟩

/-- The first two coordinates. -/
def Vec4.xy (v : Vec4 Rat) : Point := (v.x, v.y)

/-! ## Products -/

theorem Mat4.apply_mul (t u : Mat4 Rat) (v : Vec4 Rat) : (t.mul u).apply v = t.apply (u.apply v) := by
  simp only [mul, apply, dot, Vec4.mk.injEq]
  refine ⟨?_, ?_, ?_, ?_⟩ <;> ring

theorem Mat4.applyPoint_eq (t : Mat4 Rat) (p : Point) :
    t.applyPoint p.1 p.2 = (t.apply p.homogeneous).xy := by
  simp only [applyPoint, apply, dot, Point.homogeneous, Vec4.xy, Prod.mk.injEq]
  constructor <;> ring

namespace Affine

/-- Over exact numbers nothing is narrowed. -/
theorem toMat4_eq (m : Affine Rat) : (m.toMat4 : Mat4 Rat) = m.homogeneous := rfl

theorem apply_homogeneous (m : Affine Rat) (p : Point) :
    m.homogeneous.apply p.homogeneous = (m.act p).homogeneous := by
  simp only [homogeneous, Mat4.apply, Mat4.dot, Point.homogeneous, act, Affine.apply, Vec4.mk.injEq]
  refine ⟨?_, ?_, ?_, ?_⟩ <;> ring

theorem homogeneous_compose (m n : Affine Rat) :
    (m.compose n).homogeneous = m.homogeneous.mul n.homogeneous := by
  simp only [homogeneous, compose, Mat4.mul, Mat4.apply, Mat4.dot, Mat4.mk.injEq, Vec4.mk.injEq]
  refine ⟨⟨?_, ?_, ?_, ?_⟩, ⟨?_, ?_, ?_, ?_⟩, ⟨?_, ?_, ?_, ?_⟩, ?_, ?_, ?_, ?_⟩ <;> ring

end Affine

namespace Rasterizer

/-! ## Drawing -/

/-- The colour at a point of a texture, transparent outside the unit square. -/
def colorAt (texture : Frame) (p : Point) : Rgba :=
  if Coordinate.isUnit p.1 && Coordinate.isUnit p.2 then sample texture p.1 p.2 else .transparent

/-- The middle of column `x` and row `y` of a viewport, counted from its bottom left corner, where the
viewport is the unit square. -/
def quadPoint (viewport : Size) (x y : Nat) : Point :=
  (cellCenter x viewport.width, cellCenter y viewport.height)

theorem fragment_eq_colorAt (m : Mat4 Rat) (texture : Frame) (viewport : Size) (x y : Nat) :
    fragment m texture viewport x y =
      colorAt texture (m.apply (quadPoint viewport x y).homogeneous).xy := by
  rw [← Mat4.applyPoint_eq]
  rfl

/-- A quad is drawn only with everything in place, and changes the target alone. -/
theorem exists_of_draw {s s' : Rasterizer Rat} (h : draw s = (.ok (), s')) :
    ∃ input v t, s.input = some input ∧ s.viewport = some v ∧ s.target = some t ∧
      s' = { s with target := some (drawn (s.texMatrix.mul s.userMatrix) input v t) } := by
  unfold draw at h
  split at h
  · cases h
  · cases h
  · cases h
  · cases h
  · next input v t _ hinput hv ht =>
    cases h
    exact ⟨input, v, t, hinput, hv, ht, rfl⟩

/-- The coordinates that a quad is sampled at are those of the texture matrix, applied to the homogeneous
point that the transform of the region leads to, and those of the product of both matrices with the
homogeneous point of the quad. Composed transforms become products of matrices. A quad that is drawn on a
picture shows each pixel of the viewport in the colour at these coordinates. -/
theorem draw_coordinates (t : Mat4 Rat) (m : Affine Rat) :
    (∀ q : Point, (t.mul m.toMat4).applyPoint q.1 q.2 = (t.apply (m.act q).homogeneous).xy ∧
      (t.mul m.toMat4).applyPoint q.1 q.2 = ((t.mul m.toMat4).apply q.homogeneous).xy) ∧
    (∀ n : Affine Rat, (m.compose n).toMat4 = m.toMat4.mul n.toMat4) ∧
    ∀ (s s' : Rasterizer Rat) (target : Frame), s.texMatrix = t → s.userMatrix = m.toMat4 →
      s.target = some target.toCanvas → draw s = (.ok (), s') →
      ∃ (input : Frame) (v : Viewport) (target' : Frame), s.input = some input ∧
        s.viewport = some v ∧ s'.target = some target'.toCanvas ∧
        ∀ x y, x < target.width → y < target.height → v.contains x y = true →
          target'.pixel? x (target.height - 1 - y) = some (colorAt input
            (t.apply (m.act (quadPoint v.size (x - v.x) (y - v.y))).homogeneous).xy) := by
  have hcontract (q : Point) :
      ((t.mul m.toMat4).apply q.homogeneous).xy = (t.apply (m.act q).homogeneous).xy := by
    rw [Mat4.apply_mul, Affine.toMat4_eq, Affine.apply_homogeneous]
  refine ⟨fun q => ⟨?_, Mat4.applyPoint_eq _ q⟩, Affine.homogeneous_compose m, ?_⟩
  · rw [Mat4.applyPoint_eq, hcontract]
  · intro s s' target ht hm htarget h
    obtain ⟨input, v, c, hinput, hv, hc, rfl⟩ := exists_of_draw h
    obtain rfl := Option.some.inj (hc.symm.trans htarget)
    refine ⟨input, v, drawnOn (s.texMatrix.mul s.userMatrix) input v target, hinput, hv, rfl,
      fun x y hx hy hc => ?_⟩
    have hin := Viewport.contains_iff.1 hc
    rw [(filled_drawn _ input v target).inside x y hx hy ⟨hin.1, hin.2.1⟩ hin.2.2, ht, hm,
      fragment_eq_colorAt, hcontract]

/-- A texture matrix with no entry that could be left out. -/
def skewed : Mat4 Rat :=
  ⟨⟨1 / 2, 1 / 4, 3, 1⟩, ⟨1 / 3, 1 / 2, 5, 2⟩, ⟨7, 7, 7, 7⟩, ⟨1 / 8, 1 / 16, 9, 1⟩⟩

/-- The middle part of the unit square. -/
def squeezed : Affine Rat := ⟨1 / 2, 0, 0, 1 / 2, 1 / 4, 1 / 4⟩

/-- About to draw a white quad over a blank target. -/
def skewedQuad : Rasterizer Rat :=
  { (new : Rasterizer Rat) with
    target := some blankTarget.toCanvas
    current := some 1
    input := some whitePixel
    texMatrix := skewed
    userMatrix := squeezed.toMat4
    viewport := some ⟨0, 0, 2, 2⟩ }

theorem draw_coordinates_skewed :
    (skewed.mul squeezed.toMat4).applyPoint (3 / 4) (1 / 4) = (9 / 16, 13 / 32) ∧
      (squeezed.compose squeezed).toMat4 = (squeezed.toMat4.mul squeezed.toMat4 : Mat4 Rat) ∧
      ∃ (s' : Rasterizer Rat) (t' : Frame), draw skewedQuad = (.ok (), s') ∧
        s'.target = some t'.toCanvas ∧ t'.pixel? 1 1 = some ⟨255, 255, 255, 255⟩ := by
  obtain ⟨hpoint, hcompose, hdraw⟩ := draw_coordinates skewed squeezed
  obtain ⟨s', hs⟩ : ∃ s', draw skewedQuad = (.ok (), s') := ⟨_, rfl⟩
  obtain ⟨input, v, t', hinput, hv, ht', hshown⟩ :=
    hdraw skewedQuad s' blankTarget rfl rfl rfl hs
  cases hinput
  cases hv
  have hwhite := hshown 1 0 (by decide) (by decide) (by decide)
  refine ⟨(hpoint (3 / 4, 1 / 4)).1.trans (by decide +kernel), hcompose squeezed, s', t', hs, ht', ?_⟩
  exact hwhite.trans (by decide +kernel)

end Rasterizer

end RegionCapture
