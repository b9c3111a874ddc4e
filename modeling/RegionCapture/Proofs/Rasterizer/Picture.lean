import RegionCapture.Proofs.Rasterizer.Painting
/-!
# Pictures of a layout

What it is for a picture to show a frame through a layout (`Layout.Shows`). Painting the regions of a
layout into a target that is cleared makes such a picture, as the viewports are apart
(`shows_painted`).
-/

namespace RegionCapture

variable {K L : Type} [Coordinate L] [Narrowing K L]

/-- The colour of a region at an offset in its viewport: a function of the frame, the region's
transform and the size of its viewport. -/
def SourceFrame.shade (frame : SourceFrame L) (inverse : Affine K) (size : Size) (x y : Nat) : Rgba :=
  Rasterizer.fragment (frame.matrix.mul inverse.toMat4) frame.texture size x y

/-- A picture shows a frame through a layout: it has the layout's size, each region in its viewport,
and is transparent around them. Rows count from the bottom. -/
structure Layout.Shows (l : Layout K) (frame : SourceFrame L) (t : Frame) : Prop where
  size : t.size = l.combined
  inside : ∀ p ∈ l.placements, ∀ v, p.viewport = some v → ∀ x y, x < t.width → y < t.height →
    v.contains x y = true →
    t.pixel? x (t.height - 1 - y) = some (frame.shade p.inverse v.size (x - v.x) (y - v.y))
  outside : ∀ x y, x < t.width → y < t.height → (∀ v ∈ l.viewports, v.contains x y = false) →
    t.pixel? x (t.height - 1 - y) = some .transparent

namespace Layout

theorem map_viewport_draws (l : Layout K) :
    (Compositor.new l : Compositor L).draws.map RegionDraw.viewport = l.viewports := by
  simp only [Compositor.new, Layout.viewports, List.map_filterMap]
  congr 1
  funext p
  cases h : p.viewport <;> simp [Compositor.drawOf, h]

/-- A target that is cleared, with the regions of a layout painted into it, shows the frame through the
layout, if it is a picture. -/
theorem shows_painted {l : Layout K} (ha : l.viewports.Pairwise Viewport.Apart)
    {frame : SourceFrame L} {c : Canvas} (hs : c.size = l.combined) {t : Frame}
    (ht : t.toCanvas = Rasterizer.painted frame (Compositor.new l : Compositor L).draws
      (c.fill .transparent)) : l.Shows frame t := by
  have hsize : t.size = c.size := by rw [ht, Rasterizer.size_painted, Canvas.size_fill]
  -- all pixels are there in the end, so all were there before
  have hwhole : c.Whole := by
    have hcount := t.size_pixels
    rw [Canvas.Whole, ht, Rasterizer.size_pixels_painted, Canvas.size_pixels_fill, ← ht] at hcount
    obtain ⟨hw, hh⟩ := Size.mk.inj hsize
    rwa [hw, hh] at hcount
  have hfill : (c.fill .transparent).Whole := (c.size_pixels_fill _).trans hwhole
  obtain ⟨hw, hh⟩ := Size.mk.inj hsize
  refine ⟨hsize.trans hs, ?_, ?_⟩
  · intro p hp v hv x y hx hy hc
    rw [hw] at hx
    rw [hh] at hy ⊢
    have hd : (⟨v, p.inverse.toMat4⟩ : RegionDraw L) ∈ (Compositor.new l : Compositor L).draws :=
      List.mem_filterMap.2 ⟨p, hp, by rw [Compositor.drawOf, hv]; rfl⟩
    rw [← map_viewport_draws (L := L)] at ha
    have hpaint := Rasterizer.pixel?_painted_inside frame hfill hd ha hx hy hc
    rwa [← ht] at hpaint
  · intro x y hx hy ho
    rw [hw] at hx
    rw [hh] at hy ⊢
    have hd : ∀ d ∈ (Compositor.new l : Compositor L).draws, d.viewport.contains x y = false := by
      intro d hd
      refine ho _ ?_
      rw [← map_viewport_draws (L := L)]
      exact List.mem_map_of_mem hd
    have hpaint := Rasterizer.pixel?_painted_outside frame hfill hy hd
    rw [← ht] at hpaint
    have hrow : c.height - 1 - y < c.height := by omega
    exact hpaint.trans (hwhole.pixel?_fill _ hx hrow)

end Layout

end RegionCapture
