import RegionCapture.Proofs.Layout.Packing
import RegionCapture.Proofs.Region.Placing
import RegionCapture.Proofs.Session.Planned
/-!
# What the places of a plan hold

A place that is drawn on holds a region that was made from its crop and has pixels (`Makes.holds`). The
first place stands at the corner, with the transform that pointer positions go through.
-/

namespace RegionCapture

theorem Placement.viewport_eq_some_iff {K : Type} {p : Placement K} {v : Viewport} :
    p.viewport = some v ↔ p.size.isEmpty = false ∧ v = ⟨p.x, p.y, p.size.width, p.size.height⟩ := by
  cases h : p.size.isEmpty <;> simp [viewport, h, eq_comm]

namespace Plan

section

variable {K : Type} [Coefficient K] [Rotation K] {o : Options K} {display : DisplayState}
  {plan : Plan K}

/-- The layout of a plan that was made is packed. -/
theorem Makes.packed (h : Makes o display plan) : plan.layout.Packed := by
  cases h <;> dsimp only <;> exact Layout.packed_of_arrange _ _ _

/-- The first place stands at the corner, with the transform that pointer positions go through. -/
theorem Makes.first (h : Makes o display plan) {p : Placement K} (hp : plan.layout.region1 = some p) :
    p.x = 0 ∧ p.y = 0 ∧ p.inverse = plan.transform1.getD Affine.identity := by
  cases h <;> cases hp <;> exact ⟨rfl, rfl, rfl⟩

/-- A plan is for the display that it was made for, and so is the surface. -/
theorem Makes.display_eq (h : Makes o display plan) :
    plan.display = display ∧ plan.inputSize = display.size := by
  cases h <;> exact ⟨rfl, rfl⟩

end

variable [Rotation Rat] {o : Options Rat} {display : DisplayState} {plan : Plan Rat}

/-- A place of a layout holds the region that is made from a crop, and the region has pixels. -/
structure Holds (o : Options Rat) (display : DisplayState) (crop : Option Rect) (p : Placement Rat)
    (r : Region Rat) : Prop where
  region : region o display crop = .ok r
  full : r.size.isEmpty = false
  back : ∃ back, r.inverse = .ok back ∧ p.inverse = back.getD Affine.identity

/-- What the two places of a layout hold, if they are drawn on. -/
theorem Makes.holds (h : Makes o display plan) {p : Placement Rat} {v : Viewport}
    (hv : p.viewport = some v) :
    (plan.layout.region1 = some p → ∃ r, Holds o display o.crop p r) ∧
      (plan.layout.region2 = some p → ∃ r, Holds o display o.crop2 p r) := by
  have hfull := (Placement.viewport_eq_some_iff.1 hv).1
  cases h with
  | @single r inverse whole hr hi =>
    refine ⟨fun hp => ⟨r, hr, ?_, inverse, hi, ?_⟩, fun hp => ?_⟩
    · cases hp
      simp only at hfull
      split at hfull
      · exact hfull
      · next hn => exact Bool.eq_false_iff.2 hn
    · cases hp
      rfl
    · cases hp
  | @pair r1 r2 inverse1 inverse2 crop2 split hr1 hr2 hi1 hi2 =>
    refine ⟨fun hp => ?_, fun hp => ?_⟩
    · cases hp
      rw [input, Size.isEmpty_align] at hfull
      cases hcrop : o.crop with
      | none =>
        -- a first crop that is missing has no area
        rw [hcrop, Option.getD_none] at hr1
        rw [size_of_region hr1, Orientation.isEmpty_shown] at hfull
        rw [isEmpty_areaSize_zero] at hfull
        cases hfull
      | some rect =>
        rw [hcrop] at hr1
        exact ⟨r1, hr1, hfull, inverse1, hi1, rfl⟩
    · cases hp
      rw [input, Size.isEmpty_align] at hfull
      rw [split]
      exact ⟨r2, hr2, hfull, inverse2, hi2, rfl⟩

/-- A plan whose output has pixels has a region with pixels. -/
theorem Makes.exists_holds (h : Makes o display plan)
    (hv : plan.videoSize.isEmpty = false) : ∃ crop p r, Holds o display crop p r := by
  have hpacked := h.packed
  have hne : plan.layout.viewports ≠ [] := by
    intro hn
    rw [videoSize, hpacked.isEmpty_iff.2 hn] at hv
    cases hv
  obtain ⟨v, hm⟩ := List.exists_mem_of_ne_nil _ hne
  obtain ⟨p, hp, hv⟩ := List.mem_filterMap.1 hm
  obtain ⟨h1, h2⟩ := h.holds hv
  rcases Layout.mem_placements.1 hp with hp | hp
  · exact ⟨_, p, h1 hp⟩
  · exact ⟨_, p, h2 hp⟩

end Plan

end RegionCapture
