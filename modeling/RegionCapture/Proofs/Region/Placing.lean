import RegionCapture.Proofs.Region.Cells
import RegionCapture.Proofs.Region.Sizes
/-!
# Where a region places the source

The steps of a region as a map of points (`Region.place`). Orienting a region turns and mirrors the
unit square, and with it the size, just as it turns and mirrors a picture. A crop that succeeds lies in
the region that it is cut out of, and cuts its pixels out if its edges are in order
(`exact_iff_ordered`).
-/

namespace RegionCapture

namespace Region

/-- Where the steps so far take a point of the source. -/
def place (r : Region Rat) (p : Point) : Point := (r.transform.getD Affine.identity).act p

@[simp] theorem place_whole (s : Size) : (whole s : Region Rat).place = id :=
  funext Affine.act_identity

@[simp] theorem place_append (r : Region Rat) (step : Affine Rat) (s : Size) :
    (r.append step s).place = step.act ∘ r.place := by
  funext p
  cases h : r.transform <;> simp [place, append, h]

/-- The inverse of a region takes every point back to where it comes from. -/
theorem place_inverse {r : Region Rat} {back : Option (Affine Rat)} (h : r.inverse = .ok back)
    (p : Point) : r.place ((back.getD Affine.identity).act p) = p ∧
      (back.getD Affine.identity).act (r.place p) = p := by
  unfold inverse at h
  unfold place
  split at h
  · next ht =>
    cases h
    simp [ht]
  · next m ht =>
    cases hn : m.inverse with
    | error e => rw [hn] at h; cases h
    | ok n =>
      rw [hn] at h
      cases h
      simp only [ht, Option.getD_some]
      exact ⟨Affine.act_act_inverse hn p, Affine.act_inverse_act hn p⟩

/-! ## Orienting -/

theorem isPeriodicPt_turn (T : Point → Point) : Function.IsPeriodicPt (Point.turn ∘ ·) 4 T := by
  funext p
  simp [Point.turn]

/-- The quarter turns that undo `k` counter-clockwise ones are `k` clockwise ones. -/
theorem place_of_rotate {r r' : Region Rat} {k : Nat} (h : r.rotate ((4 - k % 4) % 4) = .ok r') :
    r'.place = (Point.turn ∘ ·)^[k] r.place ∧ r'.size = Size.rotate^[k] r.size := by
  rw [← (isPeriodicPt_turn r.place).iterate_mod_apply, ← (isPeriodicPt_rotate r.size).iterate_mod_apply]
  have hk : k % 4 = 0 ∨ k % 4 = 1 ∨ k % 4 = 2 ∨ k % 4 = 3 := by omega
  rcases hk with hk | hk | hk | hk <;> rw [hk] at h ⊢ <;> cases h
  case inl => exact ⟨rfl, rfl⟩
  all_goals
    refine ⟨?_, rfl⟩
    rw [place_append]
    funext p
    simp [Affine.act, Affine.apply, Point.turn, neg_add_eq_sub]

/-- An orientation mirrors if it is flipped, and then turns. -/
theorem place_of_orient {r r' : Region Rat} {o : Orientation} (h : r.orient o = .ok r') :
    r'.place = (Point.turn ∘ ·)^[o.turns.val] (if o.flipped then Point.mirror ∘ r.place else r.place) ∧
      r'.size = Size.rotate^[o.turns.val] r.size := by
  unfold orient at h
  rw [← Nat.mod_eq_of_lt o.turns.isLt] at h
  obtain ⟨hp, hs⟩ := place_of_rotate h
  rw [hp, hs]
  cases o.flipped with
  | false => exact ⟨rfl, rfl⟩
  | true =>
    refine ⟨?_, rfl⟩
    simp only [if_true, place_append]
    congr 1
    funext p
    exact Affine.act_mirrorX _

/-- Orienting a region shows it in the orientation. -/
theorem place_of_orientOn {r r' : Region Rat} {displayTurns : Nat} {locked : Bool} {o : Orientation}
    (h : r.orientOn displayTurns locked o = .ok r') :
    r'.place = o.shown displayTurns locked (Point.turn ∘ ·) (Point.mirror ∘ ·) r.place ∧
      r'.size = o.shown displayTurns locked Size.rotate id r.size := by
  simp only [Orientation.shown, id_eq, ite_self]
  cases locked with
  | false => exact place_of_orient h
  | true =>
    obtain ⟨r₁, h₁, h⟩ := bind_eq_ok.1 h
    obtain ⟨hp, hs⟩ := place_of_orient h
    obtain ⟨hp₁, hs₁⟩ := place_of_rotate h₁
    rw [hp, hs, hp₁, hs₁]
    exact ⟨rfl, rfl⟩

/-! ## Cropping -/

section

variable {s : Size} {rect : Rect}

theorem fits_of_admits (h : admits s rect = true) : rect.Fits s := by
  -- a side read as a signed number is no larger
  have hside (n : Nat) : Rect.signed32 n ≤ n := by
    unfold Rect.signed32
    rw [Int.bmod_def]
    split <;> omega
  simp only [admits, Bool.and_eq_true, decide_eq_true_eq] at h
  obtain ⟨⟨⟨⟨⟨-, -⟩, hl⟩, ht⟩, hr⟩, hb⟩ := h
  exact ⟨hl, hr.trans (hside _), ht, hb.trans (hside _)⟩

/-- The extent of a rectangle that is admitted is what it seems to be exactly if the edges are in order.
If they are crossed, it can only have come round. -/
theorem exact_iff_ordered (h : admits s rect = true) : rect.Exact ↔ rect.Ordered := by
  simp only [admits, Bool.and_eq_true, decide_eq_true_eq] at h
  obtain ⟨⟨⟨⟨⟨hw, hh⟩, hl⟩, ht⟩, hr⟩, hb⟩ := h
  have hr' := hr.trans (Rect.signed32_le _)
  have hb' := hb.trans (Rect.signed32_le _)
  constructor
  · rintro ⟨hx, hy⟩
    rw [Rect.width, Rect.signed32_eq hx] at hw
    rw [Rect.height, Rect.signed32_eq hy] at hh
    exact ⟨by omega, by omega⟩
  · rintro ⟨hx, hy⟩
    simp only [Rect.Exact, Rect.inRange, Bool.and_eq_true, decide_eq_true_eq]
    omega

end

/-- What a crop that succeeds makes of a region, given the rectangle with its axes exchanged if need
be. -/
inductive Crops (r : Region Rat) (rect : Rect) : Region Rat → Prop
  | emptied (admitted : admits r.size rect = true) (empty : rect.span.isEmpty = true) :
      Crops r rect ⟨rect.span, r.transform⟩
  | cut {step} (admitted : admits r.size rect = true) (full : rect.span.isEmpty = false)
      (moved : cropStep r.size rect = .ok step) : Crops r rect (r.append step rect.span)

theorem crop_cases {r r' : Region Rat} {rect : Rect} {exchanged : Bool}
    (h : r.crop rect exchanged = .ok r') :
    Crops r (if exchanged then rect.transposed else rect) r' := by
  unfold crop at h
  generalize (if exchanged then rect.transposed else rect) = rect at h ⊢
  cases ha : admits r.size rect with
  | false =>
    simp only [ha] at h
    cases h
  | true =>
    simp only [ha, Bool.not_true, Bool.false_eq_true, if_false] at h
    split at h
    · next he =>
      cases h
      exact .emptied ha he
    · next hn =>
      cases hs : (cropStep r.size rect : Except Fault (Affine Rat)) with
      | error e => rw [hs] at h; cases h
      | ok step =>
        rw [hs] at h
        cases h
        exact .cut ha (Bool.eq_false_iff.2 hn) hs

/-- What is left of a crop has pixels only if there were pixels before. -/
theorem Crops.full {r r' : Region Rat} {rect : Rect} (h : Crops r rect r')
    (hr : r'.size.isEmpty = false) : r.size.isEmpty = false := by
  cases h with
  | emptied _ empty =>
    rw [empty] at hr
    cases hr
  | cut _ _ moved => exact full_of_cropStep moved

end Region

namespace Plan

variable [Rotation Rat] {o : Options Rat} {display : DisplayState} {crop : Option Rect} {r : Region Rat}

/-- A display that a region with pixels is made from has pixels. -/
theorem display_full (h : region o display crop = .ok r) (hr : r.size.isEmpty = false) :
    display.size.isEmpty = false := by
  rw [size_of_region h, Orientation.isEmpty_shown] at hr
  rw [region_eq] at h
  obtain ⟨r₀, hc, -⟩ := bind_eq_ok.1 h
  cases crop with
  | none => exact hr
  | some rect =>
    rw [← size_of_cropped hc] at hr
    exact (Region.crop_cases hc).full hr

end Plan

end RegionCapture
