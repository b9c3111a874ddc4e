import Mathlib.Algebra.Ring.Parity
import Mathlib.Dynamics.PeriodicPts.Defs
import RegionCapture.Proofs.Frame.Views
import RegionCapture.Session.Plan
/-!
# Sizes of regions

How large a region is, and what keeps it from being made, does not depend on the transforms. If the
orientation is locked, the size does not depend on how the display is turned either: it is the same as
on the display turned back to its natural orientation, and what goes wrong there goes wrong here, with
the axes exchanged (`Plan.regionSize_natural`).
-/

namespace RegionCapture

variable {K : Type}

namespace Region

/-! ## Steps -/

theorem isPeriodicPt_rotate (s : Size) : Function.IsPeriodicPt Size.rotate 4 s := rfl

section

variable [Scalar K]

theorem map_size_rotate (r : Region K) (k : Nat) :
    (r.rotate ((4 - k % 4) % 4)).map size = .ok (Size.rotate^[k] r.size) := by
  rw [← (isPeriodicPt_rotate r.size).iterate_mod_apply]
  have hk : k % 4 = 0 ∨ k % 4 = 1 ∨ k % 4 = 2 ∨ k % 4 = 3 := by omega
  rcases hk with hk | hk | hk | hk <;> rw [hk] <;> rfl

theorem map_size_orient (r : Region K) (o : Orientation) :
    (r.orient o).map size = .ok (Size.rotate^[o.turns.val] r.size) := by
  unfold orient
  rw [← Nat.mod_eq_of_lt o.turns.isLt, map_size_rotate, Nat.mod_eq_of_lt o.turns.isLt]
  cases o.flipped <;> rfl

theorem map_size_orientOn (r : Region K) (displayTurns : Nat) (locked : Bool) (o : Orientation) :
    (r.orientOn displayTurns locked o).map size =
      .ok (o.shown displayTurns locked Size.rotate id r.size) := by
  simp only [Orientation.shown, id_eq, ite_self]
  cases locked with
  | false => exact map_size_orient r o
  | true =>
    obtain ⟨r₁, hr, hs⟩ := map_eq_ok.1 (map_size_rotate r displayTurns)
    unfold orientOn
    rw [if_pos rfl, hr, if_pos rfl, ← hs]
    exact map_size_orient r₁ o

end

variable [Coefficient K]

/-- An angle that no region can be tilted by is rejected. -/
def checkAngle (degrees : K) : Except Fault Unit :=
  if Coefficient.isFinite degrees then .ok () else .error (.angleStep (Coefficient.text degrees))

theorem map_size_tilt [Rotation K] (r : Region K) (degrees : K) :
    (r.tilt degrees).map size = (checkAngle degrees).map fun _ => r.size := by
  unfold tilt checkAngle
  cases Coefficient.isFinite degrees with
  | false => rfl
  | true =>
    simp only [Bool.not_true, Bool.false_eq_true, if_false, if_true]
    split <;> rfl

end Region

/-! ## Axes exchanged -/

/-- The same fault, where the axes of what it is about are exchanged. -/
def Fault.transposed : Fault → Fault
  | cropOutside rect area => cropOutside rect.transposed area.rotate
  | emptyArea width height => emptyArea height width
  | e => e

namespace Region

variable [Coefficient K]

theorem admits_transposed (s : Size) (rect : Rect) :
    admits s rect.transposed = admits s.rotate rect := by
  rw [Bool.eq_iff_iff]
  simp only [admits, Bool.and_eq_true, decide_eq_true_eq]
  constructor <;> rintro ⟨⟨⟨⟨⟨hw, hh⟩, hl⟩, ht⟩, hr⟩, hb⟩ <;> exact ⟨⟨⟨⟨⟨hh, hw⟩, ht⟩, hl⟩, hb⟩, hr⟩

theorem ontoUnitSquare_transposed (x y w h x' y' : K) :
    (Affine.ontoUnitSquare x y w h).map (fun _ => ()) =
      ((Affine.ontoUnitSquare x' y' h w).map fun _ => ()).mapError Fault.transposed := by
  unfold Affine.ontoUnitSquare
  cases Coefficient.isZero w <;> cases Coefficient.isZero h <;> rfl

theorem cropStep_transposed (s : Size) (rect : Rect) :
    (cropStep s rect.transposed : Except Fault (Affine K)).map (fun _ => ()) =
      ((cropStep s.rotate rect : Except Fault (Affine K)).map fun _ => ()).mapError
        Fault.transposed :=
  ontoUnitSquare_transposed _ _ _ _ _ _

theorem size_of_crop {r r' : Region K} {rect : Rect} {exchanged : Bool}
    (h : r.crop rect exchanged = .ok r') :
    r'.size = (if exchanged then rect.transposed else rect).span := by
  unfold crop at h
  generalize (if exchanged then rect.transposed else rect) = rect at h ⊢
  dsimp only at h
  split at h
  · cases h
  split at h
  · cases h
    rfl
  · obtain ⟨step, -, rfl⟩ := map_eq_ok.1 h
    rfl

theorem crop_eq_cropOutside {r : Region K} {rect rect' : Rect} {exchanged : Bool} {s : Size}
    (h : r.crop rect exchanged = .error (.cropOutside rect' s)) :
    rect' = (if exchanged then rect.transposed else rect) ∧ s = r.size := by
  unfold crop at h
  generalize (if exchanged then rect.transposed else rect) = rect at h ⊢
  dsimp only at h
  split at h
  · cases h
    exact ⟨rfl, rfl⟩
  split at h
  · cases h
  · simp only [cropStep, Affine.ontoUnitSquare] at h
    split at h <;> cases h

theorem map_size_crop_transposed {r r' : Region K} (h : r'.size = r.size.rotate) (rect : Rect) :
    (r.crop rect true).map size =
      (((r'.crop rect false).map size).mapError Fault.transposed).map Size.rotate := by
  have hspan : rect.transposed.span = rect.span.rotate := rfl
  simp only [crop, if_true, Bool.false_eq_true, if_false, h, admits_transposed, hspan,
    Size.isEmpty_rotate]
  split
  · rfl
  split
  · rfl
  · have hstep := cropStep_transposed (K := K) r.size rect
    cases h₁ : (cropStep r.size rect.transposed : Except Fault (Affine K)) <;>
      cases h₂ : (cropStep r.size.rotate rect : Except Fault (Affine K)) <;>
      rw [h₁, h₂] at hstep <;> cases hstep <;> rfl

end Region

/-! ## Natural orientation -/

theorem Size.involutive_rotate : Function.Involutive Size.rotate := Size.rotate_rotate

theorem Size.iterate_rotate_rotate (n : Nat) (s : Size) : rotate^[n] (rotate^[n] s) = s := by
  rw [← Function.iterate_add_apply, ← two_mul, involutive_rotate.iterate_two_mul]
  rfl

theorem Fault.involutive_transposed : Function.Involutive Fault.transposed := by
  intro e
  cases e <;> rfl

theorem Fault.iterate_transposed_angleStep (n : Nat) (text : String) :
    transposed^[n] (angleStep text) = angleStep text :=
  Function.iterate_fixed rfl n

theorem Fault.exists_cropOutside {e : Fault} {n : Nat} {rect : Rect} {s : Size}
    (h : transposed^[n] e = cropOutside rect s) : ∃ rect' s', e = cropOutside rect' s' := by
  rcases Nat.even_or_odd n with hn | hn
  · rw [involutive_transposed.iterate_even hn] at h
    exact ⟨rect, s, h⟩
  · rw [involutive_transposed.iterate_odd hn] at h
    exact ⟨_, _, involutive_transposed.eq_iff.1 h⟩

namespace DisplayState

/-- The display turned back to its natural orientation. -/
def natural (d : DisplayState) : DisplayState :=
  { d with size := Size.rotate^[d.turns] d.size, turns := 0 }

theorem natural_rotate (d : DisplayState) (n : Nat) : (d.rotate n).natural = d.natural := by
  have hsize : (d.rotate n).size = Size.rotate^[n] d.size := by
    unfold rotate
    dsimp only
    split
    · next h => rw [Size.involutive_rotate.iterate_odd (Nat.odd_iff.2 h)]
    · next h => rw [Size.involutive_rotate.iterate_even (Nat.even_iff.2 (by omega))]; rfl
  have hturns : (d.rotate n).turns = (d.turns + n) % 4 := rfl
  have hnatural : Size.rotate^[(d.rotate n).turns] (d.rotate n).size = Size.rotate^[d.turns] d.size := by
    rw [hsize, hturns, (Region.isPeriodicPt_rotate _).iterate_mod_apply, Function.iterate_add_apply,
      Size.iterate_rotate_rotate]
  unfold natural
  rw [hnatural]
  rfl

end DisplayState

namespace Plan

/-- The pixels of the display that a crop asks for: all of them if there is no crop, and the axes
exchanged if the display stands at a quarter turn. -/
def area (display : DisplayState) : Option Rect → Rect
  | none => Rect.whole display.size
  | some rect => if display.turns % 2 = 1 then rect.transposed else rect

/-- The size of what a crop of the display leaves. -/
def areaSize (display : DisplayState) : Option Rect → Size
  | none => display.size
  | some rect => (area display (some rect)).span

theorem isEmpty_areaSize_zero (display : DisplayState) :
    (areaSize display (some Rect.zero)).isEmpty = true := by
  simp only [areaSize, area]
  split <;> rfl

variable [Coefficient K]

/-- What a region begins with: a crop of the display, or all of it. -/
def cropped (display : DisplayState) : Option Rect → Except Fault (Region K)
  | none => .ok (Region.whole display.size)
  | some rect => (Region.whole display.size).crop rect (display.turns % 2 = 1)

theorem size_of_cropped {display : DisplayState} {crop : Option Rect} {r : Region K}
    (h : cropped display crop = .ok r) : r.size = areaSize display crop := by
  cases crop with
  | none =>
    cases h
    rfl
  | some rect =>
    have hs := Region.size_of_crop h
    simp only [decide_eq_true_eq] at hs
    exact hs

/-- A crop of a display is the crop of the display turned back, turned with it. -/
theorem cropped_natural (display : DisplayState) (crop : Option Rect) :
    (cropped display crop : Except Fault (Region K)).map Region.size =
      (((cropped display.natural crop : Except Fault (Region K)).map Region.size).mapError
        Fault.transposed^[display.turns]).map Size.rotate^[display.turns] := by
  cases crop with
  | none => exact congrArg Except.ok (Size.iterate_rotate_rotate display.turns display.size).symm
  | some rect =>
    unfold cropped DisplayState.natural
    rcases Nat.even_or_odd display.turns with h | h
    · rw [Size.involutive_rotate.iterate_even h, Fault.involutive_transposed.iterate_even h,
        Nat.even_iff.1 h]
      rw [mapError_id, Except.map_id]
      rfl
    · rw [Size.involutive_rotate.iterate_odd h, Fault.involutive_transposed.iterate_odd h,
        Nat.odd_iff.1 h]
      exact Region.map_size_crop_transposed rfl rect

theorem transposed_natural (display : DisplayState) (crop : Rect) :
    Fault.transposed^[display.turns] (.cropOutside crop display.natural.size) =
      .cropOutside (area display (some crop)) display.size := by
  unfold area DisplayState.natural
  rcases Nat.even_or_odd display.turns with h | h
  · rw [Size.involutive_rotate.iterate_even h, Fault.involutive_transposed.iterate_even h,
      Nat.even_iff.1 h]
    rfl
  · rw [Size.involutive_rotate.iterate_odd h, Fault.involutive_transposed.iterate_odd h,
      Nat.odd_iff.1 h]
    rfl

theorem shown_natural (o : Orientation) (turns : Nat) (s : Size) :
    o.shown turns true Size.rotate id (Size.rotate^[turns] s) = o.shown 0 true Size.rotate id s := by
  simp only [Orientation.shown, if_true, id_eq, ite_self, Size.iterate_rotate_rotate]
  rfl

variable [Rotation K]

/-- The size of a region, or why it cannot be made. -/
def regionSize (o : Options K) (display : DisplayState) (crop : Option Rect) : Except Fault Size :=
  (region o display crop).map Region.size

theorem region_eq (o : Options K) (display : DisplayState) (crop : Option Rect) :
    region o display crop = (cropped display crop : Except Fault (Region K)).bind fun r =>
      (r.orientOn display.turns o.lock.isLocked o.orientation).bind fun r => r.tilt o.angle := by
  cases crop <;> rfl

theorem regionSize_eq (o : Options K) (display : DisplayState) (crop : Option Rect) :
    regionSize o display crop = ((cropped display crop : Except Fault (Region K)).map
      Region.size).bind fun s => (Region.checkAngle o.angle).map fun _ =>
        o.orientation.shown display.turns o.lock.isLocked Size.rotate id s := by
  rw [regionSize, region_eq]
  cases (cropped display crop : Except Fault (Region K)) with
  | error e => rfl
  | ok r =>
    obtain ⟨r₁, hr, hs⟩ := map_eq_ok.1
      (Region.map_size_orientOn r display.turns o.lock.isLocked o.orientation)
    simp only [Except.bind, Except.map, hr, ← hs]
    exact Region.map_size_tilt r₁ o.angle

theorem size_of_region {o : Options K} {display : DisplayState} {crop : Option Rect} {r : Region K}
    (h : region o display crop = .ok r) : r.size =
      o.orientation.shown display.turns o.lock.isLocked Size.rotate id
        (areaSize display crop) := by
  have hs := (regionSize_eq o display crop).symm.trans (map_eq_ok.2 ⟨r, h, rfl⟩)
  obtain ⟨s, hc, ha⟩ := bind_eq_ok.1 hs
  obtain ⟨r₀, hr₀, rfl⟩ := map_eq_ok.1 hc
  obtain ⟨_, -, hr⟩ := map_eq_ok.1 ha
  rw [← hr, size_of_cropped hr₀]

theorem regionSize_eq_cropOutside {o : Options K} {display : DisplayState} {crop : Option Rect}
    {rect : Rect} {s : Size} (h : regionSize o display crop = .error (.cropOutside rect s)) :
    ∃ c, crop = some c ∧ rect = area display (some c) ∧ s = display.size := by
  rw [regionSize_eq] at h
  rcases bind_eq_error.1 h with hc | ⟨s', -, ha⟩
  · rw [map_eq_error] at hc
    cases crop with
    | none => cases hc
    | some c =>
      obtain ⟨hrect, hs⟩ := Region.crop_eq_cropOutside hc
      simp only [decide_eq_true_eq] at hrect
      exact ⟨c, rfl, hrect, hs⟩
  · rw [map_eq_error] at ha
    unfold Region.checkAngle at ha
    split at ha <;> cases ha

/-- In a locked orientation, a region is as large as on the display turned back, and what keeps it from
being made there keeps it from being made here. -/
theorem regionSize_natural {o : Options K} (h : o.lock.isLocked = true) (display : DisplayState)
    (crop : Option Rect) : regionSize o display crop =
      (regionSize o display.natural crop).mapError Fault.transposed^[display.turns] := by
  rw [regionSize_eq, regionSize_eq, cropped_natural, h]
  cases (cropped display.natural crop : Except Fault (Region K)).map Region.size with
  | error e => rfl
  | ok s =>
    simp only [Except.mapError, Except.map, Except.bind, shown_natural]
    unfold Region.checkAngle
    cases Coefficient.isFinite o.angle with
    | false => exact congrArg Except.error (Fault.iterate_transposed_angleStep _ _).symm
    | true => rfl

end Plan

end RegionCapture
