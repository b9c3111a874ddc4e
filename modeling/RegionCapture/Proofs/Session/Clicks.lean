import RegionCapture.Proofs.Region.Copies
import RegionCapture.Proofs.Session.Pointers
import RegionCapture.Proofs.Session.Prepared
/-!
# Clicks on a single region

With a single region, positions and pictures go through the same transform: the middle of a pixel of the
video leads to the point of the display that the pixel is sampled at (`pointer_follows`). A click is
mapped by the corner of its pixel, though. Without a free rotation and in its own size, the region shows
a pixel of the display there, and the click leads to that pixel along an axis that is not reversed and to
the next one along an axis that is (`pointer_lands`).
-/

namespace RegionCapture

/-! ## One region in a layout -/

theorem Layout.placements_single {K : Type} {r : RegionInput K} {cap : Nat}
    (h : (single r cap).combined.isEmpty = false) :
    (single r cap).placements = [⟨r.inverse, (single r cap).combined, 0, 0⟩] := by
  have hr : r.size.isEmpty = false := by
    rw [← Bool.not_eq_true]
    intro he
    rw [single, Size.isEmpty_align, Size.isEmpty_limit he] at h
    cases h
  simp [placements, single, hr]

theorem Compositor.draws_new {K L : Type} [Scalar L] [Narrowing K L] {l : Layout K} {back : Affine K}
    {s : Size} (h : l.placements = [⟨back, s, 0, 0⟩]) (hs : s.isEmpty = false) :
    (Compositor.new l : Compositor L).draws = [⟨⟨0, 0, s.width, s.height⟩, back.toMat4⟩] := by
  simp [new, h, drawOf, Placement.viewport, hs]

namespace Plan

theorem Makes.region_eq {K : Type} [Coefficient K] [Rotation K] {o : Options K} {display : DisplayState}
    {plan : Plan K} (h : Makes o display plan) (whole : o.crop2 = none) :
    ∃ r, region o display o.crop = .ok r ∧ r.inverse = .ok plan.transform1 := by
  cases h with
  | single _ region back => exact ⟨_, region, back⟩
  | pair split =>
    rw [whole] at split
    cases split

/-- The one region of a plan takes the whole output, and pointer positions go through its transform. -/
theorem Makes.placements_eq {K : Type} [Coefficient K] [Rotation K] {o : Options K}
    {display : DisplayState} {plan : Plan K} (h : Makes o display plan) (whole : o.crop2 = none)
    (hv : plan.videoSize.isEmpty = false) : plan.layout.placements =
      [⟨plan.transform1.getD Affine.identity, plan.videoSize, 0, 0⟩] := by
  cases h with
  | single => exact Layout.placements_single hv
  | pair split =>
    rw [whole] at split
    cases split

end Plan

/-! ## One pixel -/

namespace PointerMap

/-- The middle of a pixel of the video leads to where a picture of the display is sampled for the pixel,
if the picture is drawn over the whole video. -/
theorem apply_eq_of_texCoords {video target : Size} {toSource : Option (Affine Rat)} {m : Affine Rat}
    (h : (create video toSource target).transform = some m) {texture : Frame} {x y : Nat}
    (hy : y < video.height) {u v : Rat}
    (huv : Rasterizer.texCoords ((SourceFrame.upright texture).matrix.mul
      (toSource.getD Affine.identity).toMat4) video x (video.height - 1 - y) = (u, v)) :
    m.apply (x + 1 / 2) (y + 1 / 2) = (target.width * u, target.height * v) := by
  have hup : video.height - 1 - y < video.height := by omega
  have hrow : video.height - 1 - (video.height - 1 - y) = y := by omega
  rw [texCoords_upright hup, hrow, Prod.mk.injEq] at huv
  rw [apply_create_center h, Affine.act_toPixels, huv.1, huv.2]

variable {source : Size} {area : Rect} {net : Orientation} {region : Region Rat}
  {back : Option (Affine Rat)} {x y : Nat}

/-- How far past the pixel shown there a click on a pixel leads along an axis. -/
def overshoot (reversed : Bool) : Int := if reversed then 1 else 0

theorem along_zero (reversed : Bool) : along reversed (1 : Rat) 0 = overshoot reversed := by
  cases reversed
  · rfl
  · norm_num [along, overshoot]

theorem act_of_copies (h : region.Copies source area net) (hb : region.inverse = .ok back)
    {m : Affine Rat} (hm : (create region.size back source).transform = some m)
    (hx : x < region.size.width) (hy : y < region.size.height) : m.act (x, y) =
      ((((net.pixelIn area x y).1 + overshoot net.reversesColumns : Int) : Rat),
        (((net.pixelIn area x y).2 + overshoot net.reversesRows : Int) : Rat)) := by
  have hsource := h.fits.isEmpty_eq_false h.area_full
  -- the corner of a pixel is the corner of another one, but not always the corner that comes first
  have hcorner := h.back_point hb hx hy 0
  rw [add_zero, add_zero] at hcorner
  rw [act_create hm, hcorner, Affine.toPixels_ofPixels hsource, along_zero, along_zero]
  push_cast
  rfl

/-- A position is mapped by the corner of its pixel. Along an axis that is reversed, that is the far
corner of the pixel that is shown, and so it belongs to the next one. -/
theorem map_of_copies (h : region.Copies source area net) (hb : region.inverse = .ok back)
    (hx : x < region.size.width) (hy : y < region.size.height) :
    (create region.size back source).map ⟨⟨x, y⟩, region.size⟩ =
      some ⟨(net.pixelIn area x y).1 + overshoot net.reversesColumns,
        (net.pixelIn area x y).2 + overshoot net.reversesRows⟩ := by
  obtain ⟨m, hm⟩ : ∃ m, (create region.size back source).transform = some m := by
    simp [create, h.full]
  have hsame : (create region.size back source).video = region.size := rfl
  rw [map, hsame, if_neg (not_not_intro rfl), hm, Option.map_some]
  exact congrArg some (Affine.applyPixel_eq (act_of_copies h hb hm hx hy))

end PointerMap

/-! ## Runs -/

namespace Session

variable {β δ : Type} [Rotation Rat]

/-- An announcement is that of the plan in force, and what is left to draw with is for its layout. -/
theorem announced_makes {r : Renderer Rat β} {k : Sink δ} {g : Rig Rat Rat β δ}
    {a : Announcement Rat} (ha : (g.perform r k .start).1 = .ok (.announced a)) :
    ∃ plan virtual id, g.session.plan = some plan ∧ plan.videoSize.isEmpty = false ∧
      a = announcement plan virtual ∧
      (g.perform r k .start).2.session.compositor = some (Compositor.made plan.layout id) := by
  simp only [Rig.perform] at ha ⊢
  cases hs : (g.session.start r k g.renderer g.sink).result with
  | error e => rw [hs] at ha; cases ha
  | ok a' =>
    rw [hs] at ha
    cases ha
    exact start_makes hs

/-- A start on a plan with a single region announces the map of the plan, and leaves a compositor that
draws the region over the whole output. -/
theorem announced_single {r : Renderer Rat β} {k : Sink δ} {g : Rig Rat Rat β δ} {plan : Plan Rat}
    (hp : g.session.plan = some plan) {o : Options Rat} {display : DisplayState}
    (hmade : Plan.Makes o display plan) (whole : o.crop2 = none) {a : Announcement Rat}
    (ha : (g.perform r k .start).1 = .ok (.announced a)) :
    plan.videoSize.isEmpty = false ∧
      a.pointers = PointerMap.create plan.videoSize plan.transform1 plan.display.size ∧
      ∃ compositor, (g.perform r k .start).2.session.compositor = some compositor ∧
        compositor.draws = [⟨⟨0, 0, plan.videoSize.width, plan.videoSize.height⟩,
          (plan.transform1.getD Affine.identity).toMat4⟩] := by
  obtain ⟨plan', virtual, id, hp', hv, rfl, hc⟩ := announced_makes ha
  cases hp'.symm.trans hp
  obtain ⟨hdisplay, hinput⟩ := hmade.display_eq
  exact ⟨hv, announcement_pointers (hinput.trans (congrArg _ hdisplay.symm)) virtual, _, hc,
    Compositor.draws_new (hmade.placements_eq whole hv) hv⟩

/-- In every run of a session with a single region, in exact numbers: while the plan that the session
holds has an output with pixels, its region is drawn over the whole output, and a map takes the middle of
each pixel of the video to the point of the display that the pixel is sampled at. A start that succeeds
announces this map and leaves a compositor that draws the region so. -/
theorem pointer_follows {o : Options Rat} {c : Capabilities} {s₀ : Session Rat Rat}
    (h₀ : new o c = .ok s₀) (whole : o.crop2 = none) (r : Renderer Rat β) (k : Sink δ) (b₀ : β) (d₀ : δ)
    (l : List (Operation Rat)) :
    let g := Rig.run r k ⟨s₀, b₀, d₀⟩ l
    ∀ plan, g.session.plan = some plan → plan.videoSize.isEmpty = false →
      ∃ (m : Affine Rat) (matrix : Mat4 Rat),
        (PointerMap.create plan.videoSize plan.transform1 plan.display.size).transform = some m ∧
        (Compositor.new plan.layout : Compositor Rat).draws =
          [⟨⟨0, 0, plan.videoSize.width, plan.videoSize.height⟩, matrix⟩] ∧
        (∀ a, (g.perform r k .start).1 = .ok (.announced a) → a.pointers.transform = some m ∧
          ∃ compositor, (g.perform r k .start).2.session.compositor = some compositor ∧
            compositor.draws = [⟨⟨0, 0, plan.videoSize.width, plan.videoSize.height⟩, matrix⟩]) ∧
        ∀ (texture : Frame) (x y : Nat), y < plan.videoSize.height →
          ∀ u v, Rasterizer.texCoords ((SourceFrame.upright texture).matrix.mul matrix) plan.videoSize x
              (plan.videoSize.height - 1 - y) = (u, v) →
            m.apply (x + 1 / 2) (y + 1 / 2) =
              (plan.display.size.width * u, plan.display.size.height * v) := by
  intro g plan hp hv
  obtain ⟨o', display, ⟨n, lock, orientation, rfl⟩, hmake⟩ := made_run h₀ hp
  have hmade := Plan.make_cases hmake
  obtain ⟨m, hm⟩ : ∃ m, (PointerMap.create plan.videoSize plan.transform1
      plan.display.size).transform = some m := by simp [PointerMap.create, hv]
  refine ⟨m, _, hm, Compositor.draws_new (hmade.placements_eq whole hv) hv, fun a ha => ?_,
    fun texture x y hy u v huv => PointerMap.apply_eq_of_texCoords hm hy huv⟩
  obtain ⟨-, hpointers, hdrawn⟩ := announced_single hp hmade whole ha
  rw [hpointers]
  exact ⟨hm, hdrawn⟩

/-- In every run of a session with a single region and without a free rotation, in exact numbers: a start
that succeeds is on a plan that was last prepared for some display, and leaves a compositor that draws
the region over the whole output. If the output has the size of the region, and the edges of the crop are
in order, every pixel of the video shows a pixel of the display. A click there leads to that pixel along
each axis that is not reversed, and to the next one along each axis that is. -/
theorem pointer_lands {o : Options Rat} {c : Capabilities} {s₀ : Session Rat Rat}
    (h₀ : new o c = .ok s₀) (whole : o.crop2 = none) (ho : o.angle = 0) (r : Renderer Rat β)
    (k : Sink δ) (b₀ : β) (d₀ : δ) (l : List (Operation Rat)) :
    let g₀ : Rig Rat Rat β δ := ⟨s₀, b₀, d₀⟩
    let g := g₀.run r k l
    ∀ a, (g.perform r k .start).1 = .ok (.announced a) →
      ∃ pre source display plan post, g₀.PreparedOn r k l pre source display plan post ∧
        let o' := (g₀.run r k pre).session.options.lockOn display
        let net := o'.orientation.net display.turns o'.lock.isLocked
        ∃ (region : Region Rat) (compositor : Compositor Rat) (matrix : Mat4 Rat),
          Plan.region o' display o'.crop = .ok region ∧
          (g.perform r k .start).2.session.compositor = some compositor ∧
          compositor.draws = [⟨⟨0, 0, plan.videoSize.width, plan.videoSize.height⟩, matrix⟩] ∧
          (plan.videoSize = region.size → (∀ rect, o.crop = some rect → rect.Ordered) →
            ∀ x y : Nat, x < plan.videoSize.width → y < plan.videoSize.height →
            ∃ c q : Nat, c < display.size.width ∧ q < display.size.height ∧
              (∀ texture : Frame, texture.size = display.size →
                Rasterizer.source? ((SourceFrame.upright texture).matrix.mul matrix) texture.size
                  plan.videoSize x (plan.videoSize.height - 1 - y) = some (c, q)) ∧
              a.pointers.map ⟨⟨x, y⟩, plan.videoSize⟩ =
                some ⟨c + PointerMap.overshoot net.reversesColumns,
                  q + PointerMap.overshoot net.reversesRows⟩) := by
  intro g₀ g a ha
  have hnew := new_eq h₀
  have hidle : s₀.plan = none := by rw [hnew]
  obtain ⟨plan, -, -, hp, -⟩ := announced_makes ha
  obtain ⟨pre, source, display, post, hprep⟩ := prepared_run (g := g₀) hidle l plan hp
  refine ⟨pre, source, display, plan, post, hprep, ?_⟩
  have hmade := Plan.make_cases (made_of_preparedOn hprep)
  have hview := (sameView_run (r := r) (k := k) g₀ pre).lockOn display
  -- of the options in force then, only the crops and that there is no angle count
  generalize (g₀.run r k pre).session.options.lockOn display = o' at hmade hview
  obtain ⟨hdisplay, -⟩ := hmade.display_eq
  obtain ⟨hcrops, hsplit, hangle⟩ : o'.crop = o.crop ∧ o'.crop2 = none ∧ o'.angle = 0 := by
    have hs : g₀.session.options = o := congrArg Session.options hnew
    obtain ⟨n, lock, orientation, rfl⟩ := hview
    rw [hs]
    exact ⟨rfl, whole, ho⟩
  obtain ⟨region, hregion, hback⟩ := hmade.region_eq hsplit
  obtain ⟨hfull, hpointers, compositor, hc, hdraws⟩ := announced_single hp hmade hsplit ha
  refine ⟨region, compositor, _, hregion, hc, hdraws, fun hsame hcrop x y hx hy => ?_⟩
  rw [hpointers, hdisplay]
  rw [hsame] at hfull hx hy ⊢
  rw [← hcrops] at hcrop
  have hcopy := Plan.copies_region hangle hcrop hregion hfull
  have hin := hcopy.fits.lt (Orientation.has_pixelIn hcopy.fits (hcopy.size ▸ hx) (hcopy.size ▸ hy))
  refine ⟨_, _, hin.1, hin.2, fun texture hf => ?_, PointerMap.map_of_copies hcopy hback hx hy⟩
  have hcenter := hcopy.back_center hback hx hy
  rw [← hf] at hin hcenter
  exact source?_of_center hin.1 hin.2 hy hcenter

end Session

/-! ## A display that leans -/

namespace Session

/-- Rotations where one angle is asked for. -/
local instance leaningRotation : Rotation Rat := ⟨fun _ => (3 / 5, 4 / 5)⟩

/-- A part of the display, locked to a mirrored quarter turn, rotated freely and scaled down. -/
def leaning : Options Rat :=
  { (Options.standard : Options Rat) with
    maxSize := 11, crop := some ⟨2, 1, 14, 9⟩, lock := .value,
    orientation := Orientation.upright.mirrored.turned, angle := 30 }

/-- A display of 24 by 16 pixels that stands at a quarter turn. -/
def sidewaysDisplay : FixedDisplay := FixedDisplay.new 0 ⟨24, 16⟩ 1

/-- A session for the part that nothing has been done with. -/
def leaningSession : Session Rat Rat := ⟨leaning, ⟨false⟩, none, none, false, Invalidation.none⟩

/-- What is left of it once it is prepared, on a rasterizer. -/
def leaningPrepared : Rig Rat Rat (Rasterizer Rat) FixedDisplay :=
  Rig.run Rasterizer.renderer FixedDisplay.sink ⟨leaningSession, Rasterizer.new, sidewaysDisplay⟩
    [.prepare sidewaysDisplay.source]

/-- What it has planned. -/
def leaningPlan : Plan Rat where
  display := sidewaysDisplay.state
  layout :=
    { combined := ⟨8, 8⟩
      region1 := some ⟨⟨-1 / 5, -2 / 5, -2 / 5, 9 / 20, 61 / 120, 19 / 40⟩, ⟨8, 8⟩, 0, 0⟩
      region2 := none }
  inputSize := ⟨24, 16⟩
  transform1 := some ⟨-1 / 5, -2 / 5, -2 / 5, 9 / 20, 61 / 120, 19 / 40⟩
  transform2 := none
  dual := false

theorem plan_leaningPrepared : leaningPrepared.session.plan = some leaningPlan := by decide +kernel

theorem pointer_follows_leaning :
    leaning.crop2 = none ∧ leaningPrepared.session.plan = some leaningPlan ∧
      leaningPlan.videoSize.isEmpty = false ∧
      ∃ (m : Affine Rat) (matrix : Mat4 Rat),
        (PointerMap.create ⟨8, 8⟩ leaningPlan.transform1 ⟨24, 16⟩).transform = some m ∧
        (Compositor.new leaningPlan.layout : Compositor Rat).draws = [⟨⟨0, 0, 8, 8⟩, matrix⟩] ∧
        ∀ (texture : Frame) (u v : Rat),
          Rasterizer.texCoords ((SourceFrame.upright texture).matrix.mul matrix) ⟨8, 8⟩ 3 5 = (u, v) →
            m.apply ((3 : Nat) + 1 / 2) ((2 : Nat) + 1 / 2) = ((24 : Nat) * u, (16 : Nat) * v) := by
  obtain ⟨m, matrix, hm, hdraws, -, h⟩ :=
    pointer_follows (rfl : new leaning ⟨false⟩ = .ok leaningSession) rfl Rasterizer.renderer
      FixedDisplay.sink Rasterizer.new sidewaysDisplay [.prepare sidewaysDisplay.source] leaningPlan
      plan_leaningPrepared rfl
  exact ⟨rfl, plan_leaningPrepared, rfl, m, matrix, hm, hdraws,
    fun texture u v => h texture 3 2 (by decide) u v⟩

end Session

/-! ## A display that is flipped -/

namespace Session

open scoped Straight

/-- All of the display, mirrored. -/
def flipped : Options Rat :=
  { (Options.standard : Options Rat) with orientation := Orientation.upright.mirrored }

/-- A session for it that nothing has been done with. -/
def flippedSession : Session Rat Rat := ⟨flipped, ⟨false⟩, none, none, false, Invalidation.none⟩

/-- What is left of it once it is prepared for the small display, on a rasterizer. -/
def flippedPrepared : Rig Rat Rat (Rasterizer Rat) FixedDisplay :=
  Rig.run Rasterizer.renderer FixedDisplay.sink ⟨flippedSession, Rasterizer.new, smallDisplay⟩
    [.prepare smallDisplay.source]

/-- What it has planned. -/
def flippedPlan : Plan Rat where
  display := smallDisplay.state
  layout :=
    { combined := ⟨16, 8⟩
      region1 := some ⟨⟨-1, 0, 0, 1, 1, 0⟩, ⟨16, 8⟩, 0, 0⟩
      region2 := none }
  inputSize := ⟨16, 8⟩
  transform1 := some ⟨-1, 0, 0, 1, 1, 0⟩
  transform2 := none
  dual := false

theorem prepare_flipped : (flippedSession.prepare smallDisplay.source).1 = .ok flippedPlan := by
  decide +kernel

theorem region_flipped : Plan.region flipped smallDisplay.state none =
    .ok ⟨⟨16, 8⟩, some ⟨-1, 0, 0, 1, 1, 0⟩⟩ := by decide +kernel

theorem start_flippedPrepared :
    (flippedPrepared.perform Rasterizer.renderer FixedDisplay.sink .start).1 =
      .ok (.announced (announcement flippedPlan none)) := by
  have hp : flippedPrepared.session.plan = some flippedPlan := by decide +kernel
  have ha : (FixedDisplay.sink.attach flippedPlan.display flippedPlan.inputSize
      (flippedPrepared.session.release FixedDisplay.sink flippedPrepared.sink).2).1 = .ok none := by
    decide +kernel
  rw [Rig.perform, start_ok hp rfl ha]
  rfl

theorem pointer_lands_flipped :
    flipped.crop2 = none ∧ flipped.angle = 0 ∧
      (∀ rect, flipped.crop = some rect → rect.Ordered) ∧
      (flippedPrepared.perform Rasterizer.renderer FixedDisplay.sink .start).1 =
        .ok (.announced (announcement flippedPlan none)) ∧
      ∃ (compositor : Compositor Rat) (matrix : Mat4 Rat),
        (flippedPrepared.perform Rasterizer.renderer FixedDisplay.sink .start).2.session.compositor =
          some compositor ∧
        compositor.draws = [⟨⟨0, 0, 16, 8⟩, matrix⟩] ∧
        ∃ c q : Nat, c < 16 ∧ q < 8 ∧
          (∀ texture : Frame, texture.size = ⟨16, 8⟩ →
            Rasterizer.source? ((SourceFrame.upright texture).matrix.mul matrix) texture.size ⟨16, 8⟩
              3 5 = some (c, q)) ∧
          (announcement flippedPlan none).pointers.map ⟨⟨3, 2⟩, ⟨16, 8⟩⟩ = some ⟨c + 1, q⟩ := by
  obtain ⟨pre, source, display, plan, post, hprep, region, compositor, matrix, hregion, hc, hdraws, h⟩ :=
    pointer_lands (rfl : new flipped ⟨false⟩ = .ok flippedSession) rfl rfl Rasterizer.renderer
      FixedDisplay.sink Rasterizer.new smallDisplay [.prepare smallDisplay.source]
      (announcement flippedPlan none) start_flippedPrepared
  have hsplit := hprep.split
  -- the only operation is the preparation
  rcases pre with _ | ⟨op, pre⟩
  · simp only [List.nil_append, List.cons.injEq, Operation.prepare.injEq] at hsplit
    obtain ⟨rfl, rfl⟩ := hsplit
    cases hprep.answered
    have hplan : ((flippedSession.prepare smallDisplay.source).1.map Reply.planned) =
        .ok (.planned plan) := hprep.planned
    rw [prepare_flipped] at hplan
    cases hplan
    cases region_flipped.symm.trans hregion
    have hcrop : ∀ rect, flipped.crop = some rect → rect.Ordered := nofun
    exact ⟨rfl, rfl, hcrop, start_flippedPrepared, compositor, matrix, hc, hdraws,
      h rfl hcrop 3 2 (by decide) (by decide)⟩
  · simp at hsplit

/-- On the flipped display, the click on the first pixel does not lead to any pixel of the display. -/
theorem pointer_overshoots :
    ¬ ∀ a, (flippedPrepared.perform Rasterizer.renderer FixedDisplay.sink .start).1 =
        .ok (.announced a) →
      ∃ (compositor : Compositor Rat) (matrix : Mat4 Rat),
        (flippedPrepared.perform Rasterizer.renderer FixedDisplay.sink .start).2.session.compositor =
          some compositor ∧
        compositor.draws = [⟨⟨0, 0, 16, 8⟩, matrix⟩] ∧
        ∀ x y : Nat, x < 16 → y < 8 → ∃ c q : Nat, c < 16 ∧ q < 8 ∧
          (∀ texture : Frame, texture.size = ⟨16, 8⟩ →
            Rasterizer.source? ((SourceFrame.upright texture).matrix.mul matrix) texture.size ⟨16, 8⟩ x
              (7 - y) = some (c, q)) ∧
          a.pointers.map ⟨⟨x, y⟩, ⟨16, 8⟩⟩ = some ⟨c, q⟩ := by
  intro h
  obtain ⟨compositor, matrix, -, -, hclick⟩ := h _ start_flippedPrepared
  obtain ⟨c, q, hc, -, -, hmap⟩ := hclick 0 0 (by decide) (by decide)
  have hfar : (announcement flippedPlan none).pointers.map ⟨⟨(0 : Nat), (0 : Nat)⟩, ⟨16, 8⟩⟩ =
      some ⟨16, 0⟩ := by decide +kernel
  rw [hfar] at hmap
  -- the column that the click leads to is the first one past the display
  simp only [Option.some.injEq, PixelPoint.mk.injEq] at hmap
  omega

end Session

end RegionCapture
