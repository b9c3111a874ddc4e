import RegionCapture.Proofs.Orientation.Symmetries
import RegionCapture.Proofs.Region.Areas
import RegionCapture.Proofs.Region.Pixels
/-!
# Copies along a chain of steps

However crops, turns, flips and orientations follow each other, a region that has pixels shows one
rectangle of the source, pixel by pixel, in one of the eight orientations (`steps_copy`). What carries
this through a chain is `Copies`. A crop cuts a rectangle out of a region that is oriented already, so it
leaves a part of the rectangle before it, in the same orientation (`Orientation.part`).
-/

namespace RegionCapture

/-! ## Parts of an oriented area -/

/-- The stretch from `a` to `b` of an axis that runs from `start` to `stop`, or from `stop` to `start` if
it is reversed. -/
def stretch (reversed : Bool) (start stop a b : Int) : Int × Int :=
  if reversed then (stop - b, stop - a) else (start + a, start + b)

section

variable {reversed : Bool} {start stop a b : Int}

theorem stretch_length :
    (stretch reversed start stop a b).2 - (stretch reversed start stop a b).1 = b - a := by
  unfold stretch
  split <;> dsimp only <;> omega

theorem stretch_within (reversed : Bool) (start stop : Int) (ha : 0 ≤ a) (hb : b ≤ stop - start) :
    start ≤ (stretch reversed start stop a b).1 ∧ (stretch reversed start stop a b).2 ≤ stop := by
  unfold stretch
  split <;> dsimp only <;> omega

theorem stretch_point (t : Rat) :
    ((stretch reversed start stop a b).1 : Rat) + along reversed ((b : Rat) - a) t =
      start + along reversed ((stop : Rat) - start) (a + t) := by
  cases reversed <;> simp only [stretch, along, if_true, Bool.false_eq_true, if_false]
  · push_cast
    ring
  · push_cast
    ring

end

/-- A point counted from the corner of a rectangle. -/
def Rect.point (r : Rect) (p : Point) : Point := (r.left + p.1, r.top + p.2)

namespace Orientation

/-- The part of an area that a rectangle of the oriented area shows. -/
def part (o : Orientation) (area rect : Rect) : Rect :=
  let inner := if o.exchanges then rect.transposed else rect
  let columns := stretch o.reversesColumns area.left area.right inner.left inner.right
  let rows := stretch o.reversesRows area.top area.bottom inner.top inner.bottom
  ⟨columns.1, rows.1, columns.2, rows.2⟩

variable {o : Orientation} {area rect : Rect}

theorem part_upright (source : Size) (rect : Rect) : upright.part (Rect.whole source) rect = rect := by
  simp [part, stretch, Rect.whole, upright, exchanges, reversesColumns, reversesRows]

theorem extent_part : (o.part area rect).extent = o.size rect.extent := by
  simp only [part, Rect.extent, stretch_length, size]
  cases o.exchanges <;> rfl

theorem fits_size {s : Size} (h : rect.Fits (o.size s)) :
    (if o.exchanges then rect.transposed else rect).Fits s := by
  unfold size at h
  cases he : o.exchanges with
  | false => simpa [he] using h
  | true =>
    rw [he] at h
    obtain ⟨hl, hr, ht, hb⟩ := h
    exact ⟨ht, hb, hl, hr⟩

/-- A part of an area lies wherever the area lies. -/
theorem fits_part {source : Size} (ha : area.Fits source) (hf : area.extent.isEmpty = false)
    (hr : rect.Fits (o.size area.extent)) : (o.part area rect).Fits source := by
  obtain ⟨hl, hright, ht, hb⟩ := ha
  have hin := fits_size hr
  unfold part
  generalize (if o.exchanges then rect.transposed else rect) = inner at hin ⊢
  rw [Size.isEmpty_eq_false_iff] at hf
  simp only [Rect.Fits, Rect.extent] at hf hin
  obtain ⟨hleft, hright'⟩ :=
    stretch_within o.reversesColumns area.left area.right hin.1 (b := inner.right) (by omega)
  obtain ⟨htop, hbottom⟩ :=
    stretch_within o.reversesRows area.top area.bottom hin.2.2.1 (b := inner.bottom) (by omega)
  exact ⟨hl.trans hleft, hright'.trans hright, ht.trans htop, hbottom.trans hb⟩

/-- A point of the part is a point of the area. -/
theorem point_part (ha : area.extent.isEmpty = false) (hr : rect.extent.isEmpty = false) (p : Point) :
    (o.part area rect).point
        (o.origin ((o.part area rect).extent.width : Rat) (o.part area rect).extent.height p) =
      area.point (o.origin (area.extent.width : Rat) area.extent.height (rect.point p)) := by
  obtain ⟨hw, hh⟩ := Rect.cast_extent ha
  obtain ⟨hw', hh'⟩ := Rect.cast_extent hr
  rw [extent_part, hw, hh]
  unfold part size origin Rect.point
  cases o.exchanges with
  | false =>
    simp only [Bool.false_eq_true, if_false, hw', hh']
    exact Prod.ext (stretch_point _) (stretch_point _)
  | true =>
    simp only [if_true, Size.rotate, hw', hh']
    exact Prod.ext (stretch_point _) (stretch_point _)

end Orientation

/-! ## Pixels of an oriented area -/

namespace Orientation

/-- The pixel, in the picture around an area, that the oriented area shows in column `x` and row `y`. -/
def pixelIn (o : Orientation) (area : Rect) (x y : Nat) : Nat × Nat :=
  (area.left.toNat + (o.pixel area.extent x y).1, area.top.toNat + (o.pixel area.extent x y).2)

variable {o : Orientation} {area : Rect} {source : Size} {x y c q : Nat}

theorem has_pixelIn (ha : area.Fits source) (hx : x < (o.size area.extent).width)
    (hy : y < (o.size area.extent).height) :
    area.Has (o.pixelIn area x y).1 (o.pixelIn area x y).2 := by
  obtain ⟨hc, hq⟩ := pixel_lt hx hy
  exact (Rect.has_iff_exists ha.1 ha.2.2.1).2 ⟨_, _, hc, hq, rfl, rfl⟩

/-- Every pixel of the area is shown, and only once. -/
theorem existsUnique_pixelIn (ha : area.Fits source) (h : area.Has c q) :
    ∃! p : Nat × Nat, (p.1 < (o.size area.extent).width ∧ p.2 < (o.size area.extent).height) ∧
      o.pixelIn area p.1 p.2 = (c, q) := by
  obtain ⟨c', q', hc, hq, rfl, rfl⟩ := (Rect.has_iff_exists ha.1 ha.2.2.1).1 h
  obtain ⟨x, y, hx, hy, hp⟩ := exists_pixel_eq (o := o) hc hq
  refine ⟨(x, y), ⟨⟨hx, hy⟩, by rw [pixelIn, hp]⟩, ?_⟩
  rintro ⟨x', y'⟩ ⟨⟨hx', hy'⟩, hp'⟩
  have hsame : o.pixel area.extent x' y' = o.pixel area.extent x y := by
    rw [hp]
    simpa [pixelIn, Prod.ext_iff] using hp'
  obtain ⟨rfl, rfl⟩ := pixel_inj hx' hy' hx hy hsame
  rfl

theorem point_origin (ha : area.Fits source) (hx : x < (o.size area.extent).width)
    (hy : y < (o.size area.extent).height) (t : Rat) :
    area.point (o.origin (area.extent.width : Rat) area.extent.height (x + t, y + t)) =
      ((o.pixelIn area x y).1 + along o.reversesColumns 1 t,
        (o.pixelIn area x y).2 + along o.reversesRows 1 t) := by
  rw [origin_pixel hx hy]
  simp only [Rect.point, pixelIn, Nat.cast_add, Rect.cast_toNat ha.1, Rect.cast_toNat ha.2.2.1,
    add_assoc]

/-- A point inside the oriented area comes from a point inside the area. -/
theorem spans_origin (hs : source.isEmpty = false) (ha : area.extent.isEmpty = false) {p : Point}
    (hx : 0 < p.1 ∧ p.1 < (o.size area.extent).width)
    (hy : 0 < p.2 ∧ p.2 < (o.size area.extent).height) :
    area.Spans source ((Affine.ofPixels source).act
      (area.point (o.origin (area.extent.width : Rat) area.extent.height p))) := by
  obtain ⟨hW, hH⟩ := Size.cast_pos hs
  obtain ⟨hw, hh⟩ := Rect.cast_extent ha
  have hin : (0 < (o.origin (area.extent.width : Rat) area.extent.height p).1 ∧
        (o.origin (area.extent.width : Rat) area.extent.height p).1 < area.extent.width) ∧
      0 < (o.origin (area.extent.width : Rat) area.extent.height p).2 ∧
        (o.origin (area.extent.width : Rat) area.extent.height p).2 < area.extent.height := by
    unfold size at hx hy
    unfold origin
    cases he : o.exchanges <;> rw [he] at hx hy
    · exact ⟨along_between _ hx.1 hx.2, along_between _ hy.1 hy.2⟩
    · exact ⟨along_between _ hy.1 hy.2, along_between _ hx.1 hx.2⟩
  generalize o.origin (area.extent.width : Rat) area.extent.height p = q at hin ⊢
  obtain ⟨⟨h1, h2⟩, h3, h4⟩ := hin
  simp only [Rect.Spans, Affine.act_ofPixels, Rect.point, sub_sub_cancel, div_mul_cancel₀ _ hW.ne',
    div_mul_cancel₀ _ hH.ne']
  rw [hw] at h2
  rw [hh] at h4
  refine ⟨?_, ?_, ?_, ?_⟩ <;> linarith

end Orientation

/-- A part of a picture, shown in an orientation, shows the pixels that the orientation says. -/
theorem Frame.pixel?_shown_cut (f : Frame) {area : Rect} (ha : area.Fits f.size) (o : Orientation)
    (displayTurns : Nat) (locked : Bool) :
    ((f.cut area).shown displayTurns locked o).size =
        (o.net displayTurns locked).size area.extent ∧
      ∀ x y, x < ((o.net displayTurns locked).size area.extent).width →
        y < ((o.net displayTurns locked).size area.extent).height →
        ((f.cut area).shown displayTurns locked o).pixel? x y =
          f.pixel? ((o.net displayTurns locked).pixelIn area x y).1
            ((o.net displayTurns locked).pixelIn area x y).2 := by
  obtain ⟨hs, hp⟩ := (f.cut area).pixel?_shown o displayTurns locked
  refine ⟨hs, fun x y hx hy => (hp x y hx hy).trans ?_⟩
  obtain ⟨hc, hq⟩ := Orientation.pixel_lt hx hy
  exact Frame.pixel?_pick hc hq (ha.lt (Orientation.has_pixelIn ha hx hy))

/-! ## Laying an area over the unit square -/

/-- A map of points lays an area of a picture of the given size over the unit square, in an
orientation. -/
def Lays (source : Size) (area : Rect) (o : Orientation) (T : Point → Point) : Prop :=
  ∀ p, T ((Affine.ofPixels source).act
      (area.point (o.origin (area.extent.width : Rat) area.extent.height p))) =
    (Affine.ofPixels (o.size area.extent)).act p

namespace Lays

variable {source : Size} {area rect : Rect} {o : Orientation} {T : Point → Point}

/-- The whole picture stays where it is. -/
theorem whole (s : Size) : Lays s (Rect.whole s) .upright id := by
  intro p
  rw [Rect.extent_whole]
  simp [Rect.point, Rect.whole, Orientation.origin, Orientation.size, along, Orientation.upright,
    Orientation.exchanges, Orientation.reversesColumns, Orientation.reversesRows]

theorem turned (hf : area.extent.isEmpty = false) (h : Lays source area o T) :
    Lays source area o.turned (Point.turn ∘ T) := by
  intro p
  obtain ⟨-, hh⟩ := Size.cast_pos ((o.isEmpty_size _).trans hf)
  rw [Function.comp_apply, o.origin_turned, h, o.size_turned, Affine.act_ofPixels, Affine.act_ofPixels,
    sub_div, div_self hh.ne', sub_sub_cancel]
  rfl

theorem mirrored (hf : area.extent.isEmpty = false) (h : Lays source area o T) :
    Lays source area o.mirrored (Point.mirror ∘ T) := by
  intro p
  obtain ⟨hw, -⟩ := Size.cast_pos ((o.isEmpty_size _).trans hf)
  rw [Function.comp_apply, o.origin_mirrored, h, o.size_mirrored, Affine.act_ofPixels,
    Affine.act_ofPixels, sub_div, div_self hw.ne', Point.mirror, sub_sub_cancel]

theorem cropped (hf : area.extent.isEmpty = false) (he : rect.Exact)
    (hr : rect.extent.isEmpty = false) {step : Affine Rat}
    (hs : Region.cropStep (o.size area.extent) rect = .ok step) (h : Lays source area o T) :
    Lays source (o.part area rect) o (step.act ∘ T) := by
  intro p
  -- the crop reads its rectangle in the oriented area, so a point of the part is one of the area first
  have hsize : (o.size area.extent).isEmpty = false := (o.isEmpty_size _).trans hf
  obtain ⟨hW, hH⟩ := Size.cast_pos hsize
  obtain ⟨hw, hh⟩ := Rect.cast_extent hr
  rw [Function.comp_apply, Orientation.point_part hf hr, h, Region.act_of_cropStep he hs,
    Orientation.extent_part, Orientation.size_size, Affine.act_ofPixels, Affine.act_ofPixels, hw, hh]
  simp only [Rect.point, sub_sub_cancel, div_mul_cancel₀ _ hW.ne', div_mul_cancel₀ _ hH.ne',
    add_sub_cancel_left]

end Lays

/-! ## Regions -/

namespace Region

/-- A region that has pixels shows an area of its source, in an orientation. -/
structure Copies (source : Size) (area : Rect) (o : Orientation) (r : Region Rat) : Prop where
  full : r.size.isEmpty = false
  fits : area.Fits source
  size : r.size = o.size area.extent
  lays : Lays source area o r.place

namespace Copies

variable {source : Size} {area rect : Rect} {o : Orientation} {r r' : Region Rat}

theorem whole {s : Size} (h : s.isEmpty = false) :
    Copies s (Rect.whole s) .upright (whole s) where
  full := h
  fits := Rect.fits_whole s
  size := by
    rw [Rect.extent_whole]
    rfl
  lays := by
    rw [place_whole]
    exact Lays.whole s

theorem area_full (h : Copies source area o r) : area.extent.isEmpty = false := by
  rw [← o.isEmpty_size, ← h.size]
  exact h.full

/-- Cutting out of a region leaves a part of its area. -/
theorem cropped (h : Copies source area o r) (ha : admits r.size rect = true) (he : rect.Exact)
    (hf : rect.span.isEmpty = false) {step : Affine Rat} (hs : cropStep r.size rect = .ok step) :
    Copies source (o.part area rect) o (r.append step rect.span) where
  full := hf
  fits := Orientation.fits_part h.fits h.area_full (h.size ▸ fits_of_admits ha)
  size := by
    rw [Orientation.extent_part, Orientation.size_size, ← he.span_eq]
    rfl
  lays := by
    rw [place_append]
    exact h.lays.cropped h.area_full he (he.span_eq ▸ hf) (h.size ▸ hs)

/-- Orienting a region orients what it shows. -/
theorem orientOn (h : Copies source area o r) {displayTurns : Nat} {locked : Bool} {o' : Orientation}
    (hr : r.orientOn displayTurns locked o' = .ok r') :
    Copies source area (o'.shown displayTurns locked Orientation.turned Orientation.mirrored o) r' := by
  obtain ⟨hp, hs⟩ := place_of_orientOn hr
  refine ⟨?_, h.fits, ?_, ?_⟩
  · rw [hs, Orientation.isEmpty_shown]
    exact h.full
  · rw [hs]
    refine o'.shown_inv (R := fun (s : Size) (o : Orientation) => s = o.size area.extent) _ _ ?_ ?_
      h.size
    · exact fun s o hs => (congrArg Size.rotate hs).trans (o.size_turned _).symm
    · exact fun s o hs => hs.trans (o.size_mirrored _).symm
  · rw [hp]
    exact o'.shown_inv (R := fun T o => Lays source area o T) _ _
      (fun _ _ => Lays.turned h.area_full) (fun _ _ => Lays.mirrored h.area_full) h.lays

/-- A point of a pixel comes from a point of the pixel that is shown, and the middle from the middle. -/
theorem back_point (h : Copies source area o r) {back : Option (Affine Rat)}
    (hb : r.inverse = .ok back) {x y : Nat} (hx : x < r.size.width) (hy : y < r.size.height)
    (t : Rat) : (back.getD Affine.identity).act ((Affine.ofPixels r.size).act (x + t, y + t)) =
      (Affine.ofPixels source).act ((o.pixelIn area x y).1 + along o.reversesColumns 1 t,
        (o.pixelIn area x y).2 + along o.reversesRows 1 t) := by
  have hlays := h.lays (x + t, y + t)
  rw [← h.size] at hlays
  rw [h.size] at hx hy
  rw [← hlays, (place_inverse hb _).2, Orientation.point_origin h.fits hx hy]

theorem back_center (h : Copies source area o r) {back : Option (Affine Rat)}
    (hb : r.inverse = .ok back) {x y : Nat} (hx : x < r.size.width) (hy : y < r.size.height) :
    (back.getD Affine.identity).act (r.size.center x y) =
      source.center (o.pixelIn area x y).1 (o.pixelIn area x y).2 := by
  rw [← Affine.act_ofPixels_center, h.back_point hb hx hy, along_half, along_half,
    Affine.act_ofPixels_center]

/-- A point inside the region comes from a point inside the area. -/
theorem spans_back (h : Copies source area o r) {back : Option (Affine Rat)}
    (hb : r.inverse = .ok back) {p : Point} (hp : p.Inside) :
    area.Spans source ((back.getD Affine.identity).act p) := by
  obtain ⟨hw, hh⟩ := Size.cast_pos h.full
  have hlays := h.lays ((Affine.toPixels r.size).act p)
  rw [← h.size, Affine.ofPixels_toPixels h.full] at hlays
  rw [← hlays, (place_inverse hb _).2]
  obtain ⟨hx₀, hx₁, hy₀, hy₁⟩ := hp
  refine Orientation.spans_origin (h.fits.isEmpty_eq_false h.area_full) h.area_full ?_ ?_
  · rw [← h.size, Affine.act_toPixels]
    exact ⟨mul_pos hw hx₀, mul_lt_of_lt_one_right hw hx₁⟩
  · rw [← h.size, Affine.act_toPixels]
    exact ⟨mul_pos hh (sub_pos.2 hy₁), mul_lt_of_lt_one_right hh (sub_lt_self 1 hy₀)⟩

/-- Every pixel of the area is met just once. -/
theorem existsUnique_back (h : Copies source area o r) {back : Option (Affine Rat)}
    (hb : r.inverse = .ok back) {c q : Nat} (hin : area.Has c q) :
    ∃! p : Nat × Nat, (p.1 < r.size.width ∧ p.2 < r.size.height) ∧
      (back.getD Affine.identity).act (r.size.center p.1 p.2) = source.center c q := by
  have hsource := h.fits.isEmpty_eq_false h.area_full
  have hunique := Orientation.existsUnique_pixelIn (o := o) h.fits hin
  rw [← h.size] at hunique
  refine (existsUnique_congr fun p => and_congr_right fun hp => ?_).1 hunique
  rw [h.back_center hb hp.1 hp.2, Size.center_inj hsource, Prod.ext_iff]

end Copies

end Region

theorem Plan.ordered_area {display : DisplayState} {rect : Rect} :
    (area display (some rect)).Ordered ↔ rect.Ordered := by
  simp only [area]
  split
  · exact and_comm
  · exact Iff.rfl

/-- A region of a display without a free rotation shows its crop, in what its orientation comes to, if
the edges of the crop are in order. -/
theorem Plan.copies_region [Rotation Rat] {o : Options Rat} {display : DisplayState}
    {crop : Option Rect} {r : Region Rat} (ho : o.angle = 0)
    (hcrop : ∀ rect, crop = some rect → rect.Ordered) (h : region o display crop = .ok r)
    (hr : r.size.isEmpty = false) : Region.Copies display.size (area display crop)
      (o.orientation.net display.turns o.lock.isLocked) r := by
  rw [region_eq, ho] at h
  obtain ⟨r₀, h₀, h⟩ := bind_eq_ok.1 h
  obtain ⟨r₁, h₁, h⟩ := bind_eq_ok.1 h
  cases h
  rw [(Region.place_of_orientOn h₁).2, Orientation.isEmpty_shown] at hr
  suffices hcopy : Region.Copies display.size (area display crop) .upright r₀ from hcopy.orientOn h₁
  cases crop with
  | none =>
    cases h₀
    exact Region.Copies.whole hr
  | some rect =>
    have hc := Region.crop_cases h₀
    have horder : (area display (some rect)).Ordered := ordered_area.2 (hcrop rect rfl)
    simp only [decide_eq_true_eq] at hc
    cases hc with
    | emptied _ empty =>
      rw [empty] at hr
      cases hr
    | cut admitted full moved =>
      have hcut := (Region.Copies.whole (Region.full_of_cropStep moved)).cropped admitted
        ((Region.exact_iff_ordered admitted).2 horder) full moved
      rwa [Orientation.part_upright] at hcut

/-! ## Chains of steps -/

namespace Region

/-- What a chain of crops and orientations leaves is a copy, if it has pixels. -/
theorem copies_of_steps [Rotation Rat] {source : Size} {l : List (Step Rat)}
    (hl : ∀ degrees, .tilt degrees ∉ l)
    (hc : ∀ rect exchanged, .crop rect exchanged ∈ l → rect.Exact) {r : Region Rat}
    (h : (whole source).steps l = .ok r) (hr : r.size.isEmpty = false) :
    ∃ area o, Copies source area o r := by
  revert hr
  refine steps_inv (P := fun r => r.size.isEmpty = false → ∃ area o, Copies source area o r)
    ?_ ?_ ?_ ?_ h
  · intro r r' rect exchanged hm hr hcrop hfull
    have hexact := Rect.Exact.exchanged (hc rect exchanged hm) exchanged
    cases crop_cases hcrop with
    | emptied _ empty =>
      rw [empty] at hfull
      cases hfull
    | cut admitted full moved =>
      -- what is cut out has pixels, so there were pixels before
      obtain ⟨area, o, hr⟩ := hr (full_of_cropStep moved)
      exact ⟨_, _, hr.cropped admitted hexact full moved⟩
  · intro r r' displayTurns locked o hr ho hfull
    rw [(place_of_orientOn ho).2, Orientation.isEmpty_shown] at hfull
    obtain ⟨area, o, hr⟩ := hr hfull
    exact ⟨_, _, hr.orientOn ho⟩
  · exact fun hm => absurd hm (hl _)
  · exact fun hfull => ⟨_, _, Copies.whole hfull⟩

/-- In exact numbers, after any chain of crops, turns, flips and orientations that succeed, where the
width and the height of every rectangle that is cut out are in range, a region that has pixels can be
traced back to one rectangle of the source. The middle of each of its pixels comes from
the middle of a pixel of the rectangle, the one that one of the eight orientations says, and every pixel
of the rectangle is met just once. -/
theorem steps_copy [Rotation Rat] (source : Size) {l : List (Step Rat)}
    (hl : ∀ degrees, .tilt degrees ∉ l)
    (hc : ∀ rect exchanged, .crop rect exchanged ∈ l → rect.Exact) {r : Region Rat}
    (h : (whole source).steps l = .ok r) (hr : r.size.isEmpty = false) :
    ∃ (back : Option (Affine Rat)) (area : Rect) (o : Orientation),
      r.inverse = .ok back ∧ area.Fits source ∧ r.size = o.size area.extent ∧
      (∀ x y, x < r.size.width → y < r.size.height →
        area.Has (o.pixelIn area x y).1 (o.pixelIn area x y).2 ∧
          (back.getD Affine.identity).act (r.size.center x y) =
            source.center (o.pixelIn area x y).1 (o.pixelIn area x y).2) ∧
      ∀ c q, area.Has c q → ∃! p : Nat × Nat, (p.1 < r.size.width ∧ p.2 < r.size.height) ∧
        (back.getD Affine.identity).act (r.size.center p.1 p.2) = source.center c q := by
  obtain ⟨back, hb, -⟩ := (keepsArea_of_steps (fun hm => absurd hm (hl _)) h).inverse
  obtain ⟨area, o, hcopy⟩ := copies_of_steps hl hc h hr
  refine ⟨back, area, o, hb, hcopy.fits, hcopy.size, fun x y hx hy => ?_,
    fun c q hin => hcopy.existsUnique_back hb hin⟩
  refine ⟨?_, hcopy.back_center hb hx hy⟩
  rw [hcopy.size] at hx hy
  exact Orientation.has_pixelIn hcopy.fits hx hy

/-! ## A nested chain -/

open scoped Straight

/-- A crop, a crop of what is turned, and a crop of what is mirrored. -/
def nest : List (Step Rat) :=
  [.crop ⟨1, 0, 11, 6⟩ false, .rotate 1, .crop ⟨2, 1, 8, 5⟩ true,
    .orientOn 3 true Orientation.upright.mirrored.turned, .crop ⟨1, 0, 4, 2⟩ false,
    .orient Orientation.upright.turned.turned]

/-- What they make of a source of 12 by 8 pixels. -/
def nested : Region Rat := ⟨⟨3, 2⟩, some ⟨0, 6, 8 / 3, 0, -1, -3 / 2⟩⟩

theorem steps_nest : (whole ⟨12, 8⟩).steps nest = .ok nested := by decide +kernel

theorem steps_copy_nest :
    (∀ degrees, .tilt degrees ∉ nest) ∧
      (∀ rect exchanged, .crop rect exchanged ∈ nest → rect.Exact) ∧
      (whole ⟨12, 8⟩).steps nest = .ok nested ∧ nested.size.isEmpty = false ∧
      ∃ (back : Option (Affine Rat)) (area : Rect) (o : Orientation),
        nested.inverse = .ok back ∧ area.Fits ⟨12, 8⟩ ∧ nested.size = o.size area.extent ∧
        ((back.getD Affine.identity).act (Size.center ⟨3, 2⟩ 0 0) =
          Size.center ⟨12, 8⟩ (o.pixelIn area 0 0).1 (o.pixelIn area 0 0).2) ∧
        ∀ c q, area.Has c q → ∃! p : Nat × Nat, (p.1 < 3 ∧ p.2 < 2) ∧
          (back.getD Affine.identity).act (Size.center ⟨3, 2⟩ p.1 p.2) = Size.center ⟨12, 8⟩ c q := by
  have hl : ∀ degrees, .tilt degrees ∉ nest := fun degrees => by simp [nest]
  have hc : ∀ rect exchanged, .crop rect exchanged ∈ nest → rect.Exact := by
    intro rect exchanged hm
    simp only [nest, List.mem_cons, Step.crop.injEq, reduceCtorEq, false_or, List.not_mem_nil,
      or_false] at hm
    rcases hm with ⟨rfl, -⟩ | ⟨rfl, -⟩ | ⟨rfl, -⟩ <;> exact ⟨rfl, rfl⟩
  obtain ⟨back, area, o, hb, hfits, hsize, hcenter, honto⟩ :=
    steps_copy ⟨12, 8⟩ hl hc steps_nest rfl
  exact ⟨hl, hc, steps_nest, rfl, back, area, o, hb, hfits, hsize,
    (hcenter 0 0 (by decide) (by decide)).2, honto⟩

end Region

end RegionCapture
