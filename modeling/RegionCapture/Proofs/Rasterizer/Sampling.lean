import Mathlib.Data.Rat.Floor
import RegionCapture.Proofs.Rasterizer.Picture
import RegionCapture.Proofs.Region.Cells
/-!
# Which pixel a fragment is taken from

A fragment is a pixel of the texture, or masked (`Rasterizer.source?`). Over exact numbers, a point that
lies inside a rectangle of the texture is sampled from that rectangle and not masked
(`source?_of_spans`).
-/

namespace RegionCapture

variable {K L : Type} [Coordinate L]

/-- The pixel of a texture, by column and row, that a fragment is taken from; none if the texture
coordinates leave the unit square. -/
def Rasterizer.source? (m : Mat4 L) (texture viewport : Size) (x y : Nat) : Option (Nat × Nat) :=
  let (u, v) := texCoords m viewport x y
  if Coordinate.isUnit u && Coordinate.isUnit v then
    some (min (Coordinate.cell (u * Scalar.ofNat texture.width)) (texture.width - 1),
      min (Coordinate.cell (v * Scalar.ofNat texture.height)) (texture.height - 1))
  else none

theorem Rasterizer.fragment_eq (m : Mat4 L) (texture : Frame) (viewport : Size) (x y : Nat) :
    fragment m texture viewport x y =
      ((source? m texture.size viewport x y).bind fun p => texture.pixel? p.1 p.2).getD
        .transparent := by
  simp only [fragment, source?]
  split <;> rfl

/-- The pixel of the texture that a region shows in column `x` and row `y` of its viewport, counted
from the top; none if the place is masked. -/
def SourceFrame.source? [Narrowing K L] (frame : SourceFrame L) (inverse : Affine K) (viewport : Size)
    (x y : Nat) : Option (Nat × Nat) :=
  Rasterizer.source? (frame.matrix.mul inverse.toMat4) frame.texture.size viewport x
    (viewport.height - 1 - y)

/-! ## Exact numbers -/

section Exact

/-- A coordinate between two whole numbers of pixels falls on a pixel between them. -/
theorem cell_of_spans {a b : Int} {n : Nat} {u : Rat} (h0 : 0 ≤ a) (hn : b ≤ n)
    (ha : a < u * n) (hb : u * n < b) :
    Coordinate.isUnit u = true ∧
      a ≤ (min (Coordinate.cell (u * (n : Rat))) (n - 1) : Nat) ∧
      ((min (Coordinate.cell (u * (n : Rat))) (n - 1) : Nat) : Int) < b := by
  have hab : a < b := by exact_mod_cast ha.trans hb
  have hnpos : (0 : Rat) < n := by exact_mod_cast (by omega : 0 < n)
  have hu0 : 0 < u * n := lt_of_le_of_lt (by exact_mod_cast h0) ha
  have hu1 : u * n < n := hb.trans_le (by exact_mod_cast hn)
  have hunit : 0 ≤ u ∧ u ≤ 1 :=
    ⟨(pos_of_mul_pos_left hu0 hnpos.le).le, ((mul_lt_iff_lt_one_left hnpos).1 hu1).le⟩
  refine ⟨by simpa [Coordinate.isUnit] using hunit, ?_⟩
  have hfa : a ≤ (u * n).floor := Rat.le_floor_iff.2 ha.le
  have hfb : (u * n).floor < b := Rat.floor_lt_iff.2 hb
  simp only [Coordinate.cell]
  generalize (u * n).floor = z at hfa hfb ⊢
  omega

variable {texture : Frame} {back : Affine Rat} {viewport : Size} {x y : Nat} {r : Rect}

/-- In the middle of a cell whose row counts from the bottom, the texture coordinates are where the
cell comes from, counted from the top. -/
theorem texCoords_upright (hy : y < viewport.height) :
    Rasterizer.texCoords ((SourceFrame.upright texture).matrix.mul back.toMat4) viewport x y =
      ((back.act (viewport.center x (viewport.height - 1 - y))).1,
        1 - (back.act (viewport.center x (viewport.height - 1 - y))).2) := by
  rw [Size.center_up hy, ← Affine.act_mirrorY, ← Affine.applyPoint_homogeneous,
    ← Affine.applyPoint_mul_homogeneous]
  rfl

/-- A place whose point lies inside a rectangle of the texture shows a pixel of that rectangle. -/
theorem source?_of_spans (hr : r.Fits texture.size) (hy : y < viewport.height)
    (h : r.Spans texture.size (back.act (viewport.center x y))) :
    ∃ c q, r.Has c q ∧ (SourceFrame.upright texture).source? back viewport x y = some (c, q) := by
  obtain ⟨hl, hr, ht, hb⟩ := hr
  obtain ⟨h1, h2, h3, h4⟩ := h
  obtain ⟨hu, hx1, hx2⟩ := cell_of_spans hl hr h1 h2
  obtain ⟨hv, hy1, hy2⟩ := cell_of_spans ht hb h3 h4
  refine ⟨_, _, ⟨hx1, hx2, hy1, hy2⟩, ?_⟩
  have hrow : viewport.height - 1 - y < viewport.height := by omega
  have hback : viewport.height - 1 - (viewport.height - 1 - y) = y := by omega
  rw [SourceFrame.source?, Rasterizer.source?, texCoords_upright hrow, hback]
  simp only [hu, hv, Bool.and_self, if_true]
  rfl

/-- A place whose point is the middle of a pixel of the texture shows that pixel. -/
theorem source?_of_center {c q : Nat} (hc : c < texture.width) (hq : q < texture.height)
    (hy : y < viewport.height) (h : back.act (viewport.center x y) = texture.size.center c q) :
    (SourceFrame.upright texture).source? back viewport x y = some (c, q) := by
  have hs : (Rect.cell c q).Spans texture.size (back.act (viewport.center x y)) :=
    h ▸ Size.spans_center (Size.isEmpty_eq_false_iff.2 ⟨Nat.zero_lt_of_lt hc, Nat.zero_lt_of_lt hq⟩)
  obtain ⟨c', q', hcell, hsource⟩ := source?_of_spans (Rect.fits_cell hc hq) hy hs
  obtain ⟨rfl, rfl⟩ := Rect.has_cell_iff.1 hcell
  exact hsource

end Exact

end RegionCapture
