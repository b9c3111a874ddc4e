import RegionCapture.Proofs.Rasterizer.Sampling
import RegionCapture.Proofs.Region.Pixels
import RegionCapture.Proofs.Session.Picture
import RegionCapture.Proofs.Session.Places
/-!
# Where pointer positions lead

A position in the video is mapped as if the first region were stretched over the whole video. Inside the
first region's viewport it leads to what is shown there exactly if that viewport is the whole video
(`pointer_leads_iff`), which a second region with pixels prevents.
-/

namespace RegionCapture

/-! ## Positions -/

/-- The position on a texture, in its pixels, that a region is sampled at in column `x` and row `y` of
its viewport, counted from the bottom left corner. -/
def SourceFrame.position (frame : SourceFrame Rat) (back : Affine Rat) (viewport : Size) (x y : Nat) :
    Point :=
  let (u, v) := Rasterizer.texCoords (frame.matrix.mul back.toMat4) viewport x y
  (frame.texture.width * u, frame.texture.height * v)

/-- A position is where the display shows what the region takes the place from. -/
theorem position_upright {texture : Frame} {back : Affine Rat} {viewport : Size} {x y : Nat}
    (hy : y < viewport.height) :
    (SourceFrame.upright texture).position back viewport x y =
      (Affine.toPixels texture.size).act (back.act (viewport.center x (viewport.height - 1 - y))) := by
  rw [SourceFrame.position, texCoords_upright hy, Affine.act_toPixels]
  rfl

/-- The middles of cells in the same column and row, counted from the bottom, are the same only in
pictures of the same size. -/
theorem Size.center_eq_iff {s t : Size} {x y : Nat} (hs : y < s.height) (ht : y < t.height) :
    s.center x (s.height - 1 - y) = t.center x (t.height - 1 - y) ↔ s = t := by
  have cancel : ∀ n a b : Nat, ((n : Rat) + 1 / 2) / a = ((n : Rat) + 1 / 2) / b ↔ a = b := by
    intro n a b
    have hn : (n : Rat) + 1 / 2 ≠ 0 := by positivity
    rw [div_eq_mul_inv _ (a : Rat), div_eq_mul_inv _ (b : Rat), mul_right_inj' hn, inv_inj,
      Nat.cast_inj]
  obtain ⟨w, h⟩ := s
  obtain ⟨w', h'⟩ := t
  simp only [center_up hs, center_up ht, Prod.mk.injEq, cancel, Size.mk.injEq]

namespace PointerMap

/-- What a map does to a point of the video. -/
theorem act_create {video target : Size} {toSource : Option (Affine Rat)} {m : Affine Rat}
    (h : (create video toSource target).transform = some m) (p : Point) :
    m.act p =
      (Affine.toPixels target).act ((toSource.getD Affine.identity).act ((Affine.ofPixels video).act p)) := by
  unfold create at h
  split at h
  · cases h
  · cases h
    rw [← Affine.act_compose, ← Affine.act_compose]

/-- What a map does to the middle of a pixel of the video. -/
theorem apply_create_center {video target : Size} {toSource : Option (Affine Rat)} {m : Affine Rat}
    (h : (create video toSource target).transform = some m) (x y : Nat) :
    m.apply (x + 1 / 2) (y + 1 / 2) =
      (Affine.toPixels target).act ((toSource.getD Affine.identity).act (video.center x y)) := by
  rw [← Affine.act_ofPixels_center]
  exact act_create h (x + 1 / 2, y + 1 / 2)

end PointerMap

/-! ## Plans -/

/-- Two regions take as much room as the first one by itself exactly if the second has no pixels. -/
theorem Layout.combined_pair_eq_iff {K : Type} (r1 r2 : RegionInput K)
    (h8 : r1.size.align = r1.size) (hf : r1.size.isEmpty = false) :
    (pair r1 r2).combined = r1.size ↔ r2.size.isEmpty = true := by
  cases h2 : r2.size.isEmpty with
  | true => simpa [pair, reservedWidth, reservedHeight, hf, h2] using h8
  | false =>
    obtain ⟨hw, -⟩ := Size.isEmpty_eq_false_iff.1 h2
    have hle := le_roundUp8 (r1.size.width + r2.size.width)
    refine iff_of_false (fun h => ?_) Bool.false_ne_true
    have hwidth := congrArg Size.width h
    simp only [pair, reservedWidth, hf, h2, Size.align, Bool.false_eq_true, if_false] at hwidth
    omega

theorem Layout.viewports_eq {K : Type} {l : Layout K} {p : Placement K} {v : Viewport}
    (hp : l.region1 = some p) (hv : p.viewport = some v) :
    l.viewports = v :: (l.region2.bind Placement.viewport).toList := by
  cases h : l.region2 with
  | none => simp [viewports, placements, hp, hv, h]
  | some p2 => cases h2 : p2.viewport <;> simp [viewports, placements, hp, hv, h, h2]

namespace Plan

variable [Rotation Rat] {o : Options Rat} {display : DisplayState} {plan : Plan Rat}

/-- In the first region's viewport, a pixel's middle leads to where the region is sampled there exactly
if the viewport is the whole video. -/
theorem Makes.leads_iff (h : Makes o display plan) {p : Placement Rat} {v : Viewport}
    (hp : plan.layout.region1 = some p) (hv : p.viewport = some v) {m : Affine Rat}
    (hm : (PointerMap.create plan.videoSize plan.transform1 display.size).transform = some m)
    {texture : Frame} (hf : texture.size = display.size) {x y : Nat} (hy : y < plan.videoSize.height)
    (hin : v.contains x (plan.videoSize.height - 1 - y) = true) :
    m.apply (x + 1 / 2) (y + 1 / 2) = (SourceFrame.upright texture).position p.inverse v.size (x - v.x)
        (plan.videoSize.height - 1 - y - v.y) ↔ plan.videoSize = v.size := by
  obtain ⟨r, hr⟩ := (h.holds hv).1 hp
  obtain ⟨back, hb, hinverse⟩ := hr.back
  obtain ⟨hx0, hy0, ht⟩ := h.first hp
  obtain ⟨-, hv'⟩ := Placement.viewport_eq_some_iff.1 hv
  have hvx : v.x = 0 := by rw [hv']; exact hx0
  have hvy : v.y = 0 := by rw [hv']; exact hy0
  rw [Viewport.contains_iff] at hin
  simp only [hvx, hvy, Nat.sub_zero, Nat.zero_add] at hin ⊢
  have hinj : Function.Injective p.inverse.act := fun a b hab => by
    rw [hinverse] at hab
    rw [← (Region.place_inverse hb a).1, hab, (Region.place_inverse hb b).1]
  have hrow : plan.videoSize.height - 1 - (plan.videoSize.height - 1 - y) = y := by omega
  have hup : plan.videoSize.height - 1 - y < v.size.height := hin.2.2.2
  rw [PointerMap.apply_create_center hm, ← ht, position_upright hup, hf,
    (Affine.toPixels_injective (display_full hr.region hr.full)).eq_iff, hinj.eq_iff]
  have hcenter := Size.center_eq_iff (s := plan.videoSize) (t := v.size) (x := x)
    (y := plan.videoSize.height - 1 - y) (by omega) hup
  rwa [hrow] at hcenter

/-- The first region's viewport is the whole video exactly if it is the only one. -/
theorem Makes.fills_iff (h : Makes o display plan) {p : Placement Rat} {v : Viewport}
    (hp : plan.layout.region1 = some p) (hv : p.viewport = some v) :
    plan.videoSize = v.size ↔ plan.layout.viewports = [v] := by
  obtain ⟨hfull, hv'⟩ := Placement.viewport_eq_some_iff.1 hv
  have hsize : v.size = p.size := by rw [hv']; rfl
  rw [Layout.viewports_eq hp hv, hsize]
  cases h with
  | single =>
    cases hp
    simp only [Layout.arrange, Layout.single] at hfull ⊢
    split at hfull
    · next he => rw [he] at hfull; cases hfull
    · next he => simp [videoSize, he]
  | @pair r1 r2 inverse1 inverse2 =>
    cases hp
    have hpair := Layout.combined_pair_eq_iff (input r1.size.align inverse1)
      (input r2.size.align inverse2) (Size.align_align _) hfull
    rw [List.cons_eq_cons, Option.toList_eq_nil_iff]
    simp only [true_and]
    refine hpair.trans ?_
    cases he : r2.size.align.isEmpty <;>
      simp [Layout.arrange, Layout.pair, input, Placement.viewport, he]

end Plan

/-! ## Announcements -/

namespace Session

/-- What a start that succeeds announces, and what it leaves to draw with. -/
theorem start_makes {K L β δ : Type} [Scalar K] [Scalar L] [Narrowing K L] {r : Renderer L β}
    {k : Sink δ} {s : Session K L} {b : β} {d : δ} {a : Announcement K}
    (h : (s.start r k b d).result = .ok a) :
    ∃ plan virtual id, s.plan = some plan ∧ plan.videoSize.isEmpty = false ∧
      a = announcement plan virtual ∧
      (s.start r k b d).session.compositor = some (Compositor.made plan.layout id) := by
  have hc := s.start_cases r k b d
  generalize s.start r k b d = out at h hc ⊢
  cases hc with
  | started hp full =>
    cases h
    exact ⟨_, _, _, hp, full, rfl, rfl⟩
  | _ => cases h

/-- What a start that succeeds announces. -/
theorem start_announces {K L β δ : Type} [Scalar K] [Scalar L] [Narrowing K L] {r : Renderer L β}
    {k : Sink δ} {s : Session K L} {b : β} {d : δ} {a : Announcement K}
    (h : (s.start r k b d).result = .ok a) :
    ∃ plan virtual, s.plan = some plan ∧ plan.videoSize.isEmpty = false ∧
      a = announcement plan virtual := by
  obtain ⟨plan, virtual, -, hp, hfull, ha, -⟩ := start_makes h
  exact ⟨plan, virtual, hp, hfull, ha⟩

/-- Positions are mapped to the size of the display that the plan was made for. -/
theorem announcement_pointers {K : Type} [Scalar K] {plan : Plan K}
    (h : plan.inputSize = plan.display.size) (virtual : Option Nat) :
    (announcement plan virtual).pointers =
      PointerMap.create plan.videoSize plan.transform1 plan.display.size := by
  unfold announcement
  split
  · split
    · rw [h]
    · rfl
  · rfl

variable {β δ : Type} [Rotation Rat]

/-- In every run from a new session, in exact numbers: whenever a start succeeds, the map announced takes
the middle of a pixel in the first region's viewport to where that region is sampled at the pixel exactly
if that viewport is the only one. -/
theorem pointer_leads_iff {o : Options Rat} {c : Capabilities} {s₀ : Session Rat Rat}
    (h₀ : new o c = .ok s₀) (r : Renderer Rat β) (k : Sink δ) (b₀ : β) (d₀ : δ)
    (l : List (Operation Rat)) :
    let g := Rig.run r k ⟨s₀, b₀, d₀⟩ l
    ∀ a, (g.perform r k .start).1 = .ok (.announced a) →
      ∃ plan m, g.session.plan = some plan ∧ a.pointers.transform = some m ∧
        ∀ p v, plan.layout.region1 = some p → p.viewport = some v →
          ∀ texture : Frame, texture.size = plan.display.size → ∀ x y, y < plan.videoSize.height →
            v.contains x (plan.videoSize.height - 1 - y) = true →
            (m.apply (x + 1 / 2) (y + 1 / 2) = (SourceFrame.upright texture).position p.inverse v.size
              (x - v.x) (plan.videoSize.height - 1 - y - v.y) ↔ plan.layout.viewports = [v]) := by
  intro g a ha
  simp only [Rig.perform] at ha
  cases hs : (g.session.start r k g.renderer g.sink).result with
  | error e => rw [hs] at ha; cases ha
  | ok a' =>
    rw [hs] at ha
    cases ha
    obtain ⟨plan, virtual, hp, hfull, rfl⟩ := start_announces hs
    obtain ⟨o', display, hmake⟩ := planned_run h₀ r k b₀ d₀ l plan hp
    have hmade := Plan.make_cases hmake
    obtain ⟨hdisplay, hinput⟩ := hmade.display_eq
    rw [announcement_pointers (hinput.trans (congrArg _ hdisplay.symm))]
    have hm : ∃ m, (PointerMap.create plan.videoSize plan.transform1 plan.display.size).transform =
        some m := by simp [PointerMap.create, hfull]
    obtain ⟨m, hm⟩ := hm
    refine ⟨plan, m, hp, hm, fun p v hp hv texture hf x y hy hin => ?_⟩
    rw [hdisplay] at hm hf
    rw [hmade.leads_iff hp hv hm hf hy hin, hmade.fills_iff hp hv]

end Session

/-! ## Two regions side by side -/

namespace Session

open scoped Straight

/-- The left and the right half of a display of 16 by 8 pixels, side by side as they stand. -/
def sideBySide : Options Rat :=
  { Options.standard with crop := some ⟨0, 0, 8, 8⟩, crop2 := some ⟨8, 0, 16, 8⟩ }

/-- A session for the two halves that nothing has been done with. -/
def sideSession : Session Rat Rat := ⟨sideBySide, ⟨false⟩, none, none, false, Invalidation.none⟩

/-- The session prepared for the small display, on a rasterizer. -/
def sidePrepared : Rig Rat Rat (Rasterizer Rat) FixedDisplay :=
  Rig.run Rasterizer.renderer FixedDisplay.sink ⟨sideSession, Rasterizer.new, smallDisplay⟩
    [.prepare smallDisplay.source]

/-- What it has planned. -/
def sidePlan : Plan Rat where
  display := smallDisplay.state
  layout :=
    { combined := ⟨16, 8⟩
      region1 := some ⟨⟨1 / 2, 0, 0, 1, 0, 0⟩, ⟨8, 8⟩, 0, 0⟩
      region2 := some ⟨⟨1 / 2, 0, 0, 1, 1 / 2, 0⟩, ⟨8, 8⟩, 8, 0⟩ }
  inputSize := ⟨16, 8⟩
  transform1 := some ⟨1 / 2, 0, 0, 1, 0, 0⟩
  transform2 := some ⟨1 / 2, 0, 0, 1, 1 / 2, 0⟩
  dual := true

theorem plan_sidePrepared : sidePrepared.session.plan = some sidePlan := by decide +kernel

theorem start_sidePrepared : (sidePrepared.perform Rasterizer.renderer FixedDisplay.sink .start).1 =
    .ok (.announced (announcement sidePlan none)) := by
  have ha : (FixedDisplay.sink.attach sidePlan.display sidePlan.inputSize
      (sidePrepared.session.release FixedDisplay.sink sidePrepared.sink).2).1 = .ok none := by
    decide +kernel
  rw [Rig.perform, start_ok plan_sidePrepared rfl ha]
  rfl

/-- A blank picture of the small display. -/
def blankPicture : Frame := Frame.ofFn 16 8 fun _ _ => .transparent

theorem pointer_leads_iff_sideBySide :
    (sidePrepared.perform Rasterizer.renderer FixedDisplay.sink .start).1 =
        .ok (.announced (announcement sidePlan none)) ∧
      ∃ m, (announcement sidePlan none).pointers.transform = some m ∧
        (m.apply ((4 : Nat) + 1 / 2) ((4 : Nat) + 1 / 2) =
            (SourceFrame.upright blankPicture).position ⟨1 / 2, 0, 0, 1, 0, 0⟩ ⟨8, 8⟩ 4 3 ↔
          sidePlan.layout.viewports = [⟨0, 0, 8, 8⟩]) := by
  obtain ⟨plan, m, hp, hm, h⟩ := pointer_leads_iff (rfl : new sideBySide ⟨false⟩ = .ok sideSession)
    Rasterizer.renderer FixedDisplay.sink Rasterizer.new smallDisplay [.prepare smallDisplay.source]
    (announcement sidePlan none) start_sidePrepared
  cases hp.symm.trans plan_sidePrepared
  exact ⟨start_sidePrepared, m, hm,
    h ⟨⟨1 / 2, 0, 0, 1, 0, 0⟩, ⟨8, 8⟩, 0, 0⟩ ⟨0, 0, 8, 8⟩ rfl rfl blankPicture rfl 4 4 (by decide)
      (by decide)⟩

/-- Next to a second region, the middle of a pixel in the first one leads elsewhere. -/
theorem pointer_misled : ¬ ∀ a, (sidePrepared.perform Rasterizer.renderer FixedDisplay.sink .start).1 =
      .ok (.announced a) →
    ∃ plan m, sidePrepared.session.plan = some plan ∧ a.pointers.transform = some m ∧
      ∀ p v, plan.layout.region1 = some p → p.viewport = some v →
        ∀ texture : Frame, texture.size = plan.display.size → ∀ x y, y < plan.videoSize.height →
          v.contains x (plan.videoSize.height - 1 - y) = true →
          m.apply (x + 1 / 2) (y + 1 / 2) = (SourceFrame.upright texture).position p.inverse v.size
            (x - v.x) (plan.videoSize.height - 1 - y - v.y) := by
  intro h
  obtain ⟨plan, m, hp, hm, h⟩ := h _ start_sidePrepared
  cases hp.symm.trans plan_sidePrepared
  have hat := h ⟨⟨1 / 2, 0, 0, 1, 0, 0⟩, ⟨8, 8⟩, 0, 0⟩ ⟨0, 0, 8, 8⟩ rfl rfl blankPicture rfl 4 4
    (by decide) (by decide)
  cases hm
  -- from the middle of column 4, the pointer leads to 9 quarters of a column
  exact absurd hat (by decide +kernel)

end Session

end RegionCapture
