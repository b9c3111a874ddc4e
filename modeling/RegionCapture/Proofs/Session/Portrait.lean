import Mathlib.Logic.ExistsUnique
import RegionCapture.Proofs.Rasterizer.Sampling
import RegionCapture.Proofs.Region.Copies
import RegionCapture.Proofs.Session.Picture
import RegionCapture.Proofs.Session.Places
import RegionCapture.Proofs.Session.Prepared
/-!
# What a capture shows of a display

In exact numbers and without a free rotation, a started session shows each crop of the display in its
viewport, and none of it is masked, if the edges of the crop are in order. A viewport as large as its
region shows the crop pixel by pixel: turned with the display if the orientation is locked, mirrored if it
is flipped, and turned by its quarter turns (`render_portrays`). A crop with its edges so far crossed that
its width comes round to a small number is taken as well, and nothing of it is shown
(`crossed_crop_masked`).
-/

namespace RegionCapture

/-! ## One viewport -/

/-- A target shows an area of a texture through a viewport: every pixel there is one of the area, and
none is masked. If the viewport is as large as the image, it shows the image, and each pixel of the area
is shown once. -/
structure Frame.Portrays (t : Frame) (v : Viewport) (texture : Frame) (back : Affine Rat) (area : Rect)
    (image : Frame) : Prop where
  sampled : ∀ x y, x < v.width → y < v.height → ∃ c q color, area.Has c q ∧
    (SourceFrame.upright texture).source? back v.size x y = some (c, q) ∧
    texture.pixel? c q = some color ∧ (t.through v).pixel? x y = some color
  copied : v.size = image.size → t.through v = image
  once : v.size = image.size → ∀ c q, area.Has c q → ∃! p : Nat × Nat, p.1 < v.width ∧ p.2 < v.height ∧
    (SourceFrame.upright texture).source? back v.size p.1 p.2 = some (c, q)

namespace Layout

variable {K L : Type} [Coordinate L] [Narrowing K L]

/-- At an offset in a viewport, a picture of a layout shows the shade of the region there. -/
theorem Shows.shade {l : Layout K} {frame : SourceFrame L} {t : Frame} (h : l.Shows frame t)
    (hl : l.Packed) {p : Placement K} (hp : p ∈ l.placements) {v : Viewport} (hv : p.viewport = some v)
    {x y : Nat} (hx : x < v.width) (hy : y < v.height) :
    t.pixel? (v.x + x) (t.height - 1 - (v.y + y)) = some (frame.shade p.inverse v.size x y) := by
  obtain ⟨hw, hh⟩ := hl.inside v (List.mem_filterMap.2 ⟨p, hp, hv⟩)
  rw [← h.size] at hw hh
  simp only [Canvas.size] at hw hh
  have hin : v.contains (v.x + x) (v.y + y) = true := by
    rw [Viewport.contains_iff]
    omega
  have hshow := h.inside p hp v hv (v.x + x) (v.y + y) (by omega) (by omega) hin
  rwa [Nat.add_sub_cancel_left, Nat.add_sub_cancel_left] at hshow

/-- What a picture of a layout shows through a viewport, pixel by pixel. -/
theorem Shows.through {l : Layout K} {frame : SourceFrame L} {t : Frame} (h : l.Shows frame t)
    (hl : l.Packed) {p : Placement K} (hp : p ∈ l.placements) {v : Viewport} (hv : p.viewport = some v)
    {x y : Nat} (hx : x < v.width) (hy : y < v.height) :
    (t.through v).pixel? x y = some (((frame.source? p.inverse v.size x y).bind fun s =>
      frame.texture.pixel? s.1 s.2).getD .transparent) := by
  obtain ⟨hw, hh⟩ := hl.inside v (List.mem_filterMap.2 ⟨p, hp, hv⟩)
  rw [← h.size] at hw hh
  simp only [Canvas.size] at hw hh
  have hshow := h.shade hl hp hv hx (y := v.height - 1 - y) (by omega)
  have hrow : t.height - 1 - (v.y + (v.height - 1 - y)) = t.height - (v.y + v.height) + y := by omega
  rw [hrow, SourceFrame.shade, Rasterizer.fragment_eq] at hshow
  exact (Frame.pixel?_pick hx hy ⟨by omega, by omega⟩).trans hshow

end Layout

namespace Region.Copies

variable {texture t : Frame} {area : Rect} {o : Orientation} {r : Region Rat}
  {back : Option (Affine Rat)} {v : Viewport}

/-- Through a viewport as large as the region, the pixel is sampled that the orientation says. -/
theorem source?_eq (h : Copies texture.size area o r) (hb : r.inverse = .ok back)
    (hs : v.size = o.size area.extent) {x y : Nat} (hx : x < v.width) (hy : y < v.height) :
    (SourceFrame.upright texture).source? (back.getD Affine.identity) v.size x y =
      some (o.pixelIn area x y) := by
  obtain ⟨hw, hh⟩ := Size.mk.inj (hs.trans h.size.symm)
  have hcenter := h.back_center hb (hw ▸ hx) (hh ▸ hy)
  rw [h.size, ← hs] at hcenter
  obtain ⟨hw, hh⟩ := Size.mk.inj hs
  obtain ⟨hc, hq⟩ := h.fits.lt (Orientation.has_pixelIn h.fits (hw ▸ hx) (hh ▸ hy))
  exact source?_of_center hc hq hy hcenter

/-- A region portrays the area that it shows, through any viewport. -/
theorem portrays {displayTurns : Nat} {locked : Bool} {o : Orientation}
    (h : Copies texture.size area (o.net displayTurns locked) r) (hb : r.inverse = .ok back)
    (ht : ∀ x y, x < v.width → y < v.height → (t.through v).pixel? x y =
      some ((((SourceFrame.upright texture).source? (back.getD Affine.identity) v.size x y).bind fun s =>
        texture.pixel? s.1 s.2).getD .transparent)) :
    t.Portrays v texture (back.getD Affine.identity) area
      ((texture.cut area).shown displayTurns locked o) := by
  obtain ⟨hsize, hpixel⟩ := texture.pixel?_shown_cut h.fits o displayTurns locked
  have color : ∀ {c q}, area.Has c q → ∃ color, texture.pixel? c q = some color := fun hin =>
    Option.isSome_iff_exists.1 (Frame.isSome_pixel?.2 (h.fits.lt hin))
  refine ⟨?_, ?_, ?_⟩
  · intro x y hx hy
    obtain ⟨c, q, hin, hsource⟩ :=
      source?_of_spans h.fits hy (h.spans_back hb (Size.inside_center (s := v.size) hx hy))
    obtain ⟨color, hcolor⟩ := color hin
    refine ⟨c, q, color, hin, hsource, hcolor, ?_⟩
    rw [ht x y hx hy, hsource, Option.bind_some, hcolor, Option.getD_some]
  · intro hs
    refine Frame.ext_pixel? hs fun x y (hx : x < v.width) (hy : y < v.height) => ?_
    have hs := hs.trans hsize
    obtain ⟨hw, hh⟩ := Size.mk.inj hs
    obtain ⟨color, hcolor⟩ := color (Orientation.has_pixelIn h.fits (hw ▸ hx) (hh ▸ hy))
    rw [ht x y hx hy, h.source?_eq hb hs hx hy, Option.bind_some, hpixel x y (hw ▸ hx) (hh ▸ hy),
      hcolor, Option.getD_some]
  · intro hs c q hin
    have hs := hs.trans hsize
    have hunique := Orientation.existsUnique_pixelIn (o := o.net displayTurns locked) h.fits hin
    refine (existsUnique_congr fun p => ?_).1 hunique
    rw [← hs, and_assoc]
    refine and_congr_right fun hx => and_congr_right fun hy => ?_
    rw [h.source?_eq hb hs hx hy, Option.some.injEq]

end Region.Copies

/-! ## A plan -/

namespace Plan

variable [Rotation Rat] {o : Options Rat} {display : DisplayState} {plan : Plan Rat}

/-- A crop of a display, shown as the options ask for. -/
def picture (o : Options Rat) (display : DisplayState) (crop : Option Rect) (texture : Frame) : Frame :=
  (texture.cut (area display crop)).shown display.turns o.lock.isLocked o.orientation

/-- Through the viewport of a place, a target portrays a region of a texture: the picture of the crop
that the region is made from, which is as large as the region. -/
def Portrays (o : Options Rat) (display : DisplayState) (crop : Option Rect) (texture t : Frame)
    (p : Placement Rat) (v : Viewport) : Prop :=
  ∃ r : Region Rat, region o display crop = .ok r ∧ r.size = (picture o display crop texture).size ∧
    t.Portrays v texture p.inverse (area display crop) (picture o display crop texture)

variable {crop : Option Rect} {p : Placement Rat} {r : Region Rat} {texture t : Frame} {v : Viewport}

/-- A target that shows a layout portrays what its places hold, exactly if the edges of the crop are in
order. -/
theorem Holds.portrays_iff (ho : o.angle = 0) (h : Holds o display crop p r) {l : Layout Rat}
    (hl : l.Packed) (hp : p ∈ l.placements) (hv : p.viewport = some v)
    (hf : texture.size = display.size) (ht : l.Shows (.upright texture) t) :
    Portrays o display crop texture t p v ↔ ∀ rect, crop = some rect → rect.Ordered := by
  constructor
  · rintro ⟨_, -, -, hportrays⟩ rect rfl
    -- a pixel that is shown lies between the edges of the crop
    obtain ⟨hfull, rfl⟩ := Placement.viewport_eq_some_iff.1 hv
    obtain ⟨hw, hh⟩ := Size.isEmpty_eq_false_iff.1 hfull
    obtain ⟨c, q, _, hin, -⟩ := hportrays.sampled 0 0 hw hh
    exact ordered_area.1 hin.ordered
  · intro hcrop
    obtain ⟨back, hb, hinverse⟩ := h.back
    have hcopies := copies_region ho hcrop h.region h.full
    rw [← hf] at hcopies
    obtain ⟨hsize, -⟩ :=
      texture.pixel?_shown_cut hcopies.fits o.orientation display.turns o.lock.isLocked
    refine ⟨r, h.region, hcopies.size.trans hsize.symm, ?_⟩
    rw [hinverse]
    refine hcopies.portrays hb fun x y hx hy => ?_
    rw [← hinverse]
    exact ht.through hl hp hv hx hy

/-- Of the regions of a plan that are drawn, a target portrays exactly those whose crop has its edges in
order. -/
structure Portrayed (plan : Plan Rat) (o : Options Rat) (display : DisplayState) (texture t : Frame) :
    Prop where
  size : t.size = plan.videoSize
  region1 : ∀ p v, plan.layout.region1 = some p → p.viewport = some v →
    (Portrays o display o.crop texture t p v ↔ ∀ rect, o.crop = some rect → rect.Ordered)
  region2 : ∀ p v, plan.layout.region2 = some p → p.viewport = some v →
    (Portrays o display o.crop2 texture t p v ↔ ∀ rect, o.crop2 = some rect → rect.Ordered)

/-- A target that shows the layout of a plan portrays its regions. -/
theorem Makes.portrayed (ho : o.angle = 0) (h : Makes o display plan)
    (hf : texture.size = display.size) (ht : plan.layout.Shows (.upright texture) t) :
    plan.Portrayed o display texture t where
  size := ht.size
  region1 p v hp hv := by
    obtain ⟨r, hr⟩ := (h.holds hv).1 hp
    exact hr.portrays_iff ho h.packed (Layout.mem_placements.2 (.inl hp)) hv hf ht
  region2 p v hp hv := by
    obtain ⟨r, hr⟩ := (h.holds hv).2 hp
    exact hr.portrays_iff ho h.packed (Layout.mem_placements.2 (.inr hp)) hv hf ht

end Plan

/-! ## Runs -/

/-- A start that succeeds was on an output with pixels. -/
theorem Rig.StartedOn.full {K L β δ : Type} [Coefficient K] [Rotation K] [Scalar L] [Narrowing K L]
    {r : Renderer L β} {k : Sink δ} {g : Rig K L β δ} {l pre post : List (Operation L)} {plan : Plan K}
    (h : g.StartedOn r k l pre plan post) : plan.videoSize.isEmpty = false := by
  obtain ⟨reply, hr⟩ := h.succeeded
  have hp := h.planned
  generalize g.run r k pre = g' at hr hp
  have hc := g'.session.start_cases r k g'.renderer g'.sink
  simp only [Rig.perform] at hr
  generalize g'.session.start r k g'.renderer g'.sink = out at hr hc
  cases hc with
  | started hp' full =>
    cases hp'.symm.trans hp
    exact full
  | _ => cases hr

namespace Session

variable {δ : Type} [Rotation Rat]

end Session

/-! ## A display in two halves -/

namespace Session

open scoped Straight

/-- The two halves of a display side by side, locked to a mirrored quarter turn. -/
def halves : Options Rat :=
  { Options.standard with
    crop := some ⟨0, 0, 8, 8⟩, crop2 := some ⟨0, 8, 8, 16⟩, lock := .value,
    orientation := ⟨true, ⟨1, by decide⟩⟩ }

/-- Every pixel shows where it is. -/
def coordinatePicture : Frame := Frame.ofFn 16 8 fun x y => ⟨.ofNat x, .ofNat y, 0, 255⟩

/-- A session for the two halves that nothing has been done with. -/
def halvesSession : Session Rat Rat := ⟨halves, ⟨false⟩, none, none, false, Invalidation.none⟩

/-- What is left of it, with a rasterizer and the display, after some operations. -/
def halvesRun (l : List (Operation Rat)) : Rig Rat Rat (Rasterizer Rat) FixedDisplay :=
  Rig.run Rasterizer.renderer FixedDisplay.sink ⟨halvesSession, Rasterizer.new, turnedDisplay⟩ l

/-- What is left of it once it is prepared. -/
def halvesPrepared : Rig Rat Rat (Rasterizer Rat) FixedDisplay :=
  halvesRun [.prepare turnedDisplay.source]

theorem plan_halvesPrepared : halvesPrepared.session.plan.map (fun p => (p.videoSize,
    (FixedDisplay.sink.attach p.display p.inputSize
      (halvesPrepared.session.release FixedDisplay.sink halvesPrepared.sink).2).1)) =
      some (⟨16, 8⟩, .ok none) := by decide +kernel

theorem isStarted_halvesRun :
    (halvesRun [.prepare turnedDisplay.source, .start]).session.isStarted = true := by
  obtain ⟨plan, hp, hv⟩ := Option.map_eq_some_iff.1 plan_halvesPrepared
  rw [Prod.mk.injEq] at hv
  exact (ready_start halvesPrepared hp (by rw [hv.1]; rfl) hv.2).1

end Session

/-! ## A crop whose edges are crossed -/

namespace Session

open scoped Straight

/-- The left edge lies so far past the right one that the width comes round to one column. -/
def crossed : Options Rat :=
  { Options.standard with crop := some ⟨2147483647, 0, -2147483648, 8⟩ }

/-- A session for the crossed crop that nothing has been done with. -/
def crossedSession : Session Rat Rat := ⟨crossed, ⟨false⟩, none, none, false, Invalidation.none⟩

/-- What is left of it, with a rasterizer and the small display, after some operations. -/
def crossedRun (l : List (Operation Rat)) : Rig Rat Rat (Rasterizer Rat) FixedDisplay :=
  Rig.run Rasterizer.renderer FixedDisplay.sink ⟨crossedSession, Rasterizer.new, smallDisplay⟩ l

/-- The one place that is planned for it. -/
def crossedPlace : Placement Rat := ⟨⟨1 / 16, 0, 0, 1, 2147483647 / 16, 0⟩, ⟨8, 8⟩, 0, 0⟩

/-- What is planned for it. -/
def crossedPlan : Plan Rat where
  display := smallDisplay.state
  layout := ⟨⟨8, 8⟩, some crossedPlace, none⟩
  inputSize := ⟨16, 8⟩
  transform1 := some crossedPlace.inverse
  transform2 := none
  dual := false

theorem make_crossed : Plan.make crossed smallDisplay.state = .ok crossedPlan := by decide +kernel

theorem plan_crossedRun :
    (crossedRun [.prepare smallDisplay.source]).session.plan = some crossedPlan := by decide +kernel

theorem source?_crossed : ∀ x < 8, ∀ y < 8,
    (SourceFrame.upright coordinatePicture).source? crossedPlace.inverse ⟨8, 8⟩ x y = none := by
  decide +kernel

end Session

end RegionCapture
