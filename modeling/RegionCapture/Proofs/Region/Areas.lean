import Mathlib.Algebra.Order.Ring.Abs
import RegionCapture.Proofs.Orientation.Symmetries
import RegionCapture.Proofs.Region.Placing
/-!
# Areas along a chain of steps

Whatever crops, turns, flips and rotations describe a region, the transform that they add up to can be
undone, and it takes a pixel of the source to the area of a pixel of the region (`steps_invertible`).
What carries this through a chain is `KeepsArea`, which ties the determinant of the transform to the two
sizes. A crop without area changes the size alone, and from then on the sizes do not count.
-/

namespace RegionCapture

/-- Cosine and sine of every angle lie on the unit circle. -/
def Rotation.OnCircle [Rotation Rat] : Prop :=
  ∀ degrees : Rat, (Rotation.turn degrees).1 * (Rotation.turn degrees).1 +
    (Rotation.turn degrees).2 * (Rotation.turn degrees).2 = 1

/-! ## Determinants -/

namespace Affine

@[simp] theorem compose_identity (m : Affine Rat) : m.compose identity = m := by
  simp [compose, identity]

@[simp] theorem determinant_identity : (identity : Affine Rat).determinant = 1 := by
  simp [determinant, identity]

@[simp] theorem determinant_compose (m n : Affine Rat) :
    (m.compose n).determinant = m.determinant * n.determinant := by
  simp only [determinant, compose]
  ring

@[simp] theorem determinant_scale (x y : Rat) : (scale x y).determinant = x * y := by
  simp [determinant, scale]

@[simp] theorem determinant_translate (x y : Rat) : (translate x y).determinant = 1 := by
  simp [determinant, translate]

@[simp] theorem determinant_mirrorX : (mirrorX : Affine Rat).determinant = -1 := by
  simp [determinant, mirrorX]

theorem determinant_of_quarterTurns {n : Nat} {m : Affine Rat} (h : quarterTurns n = .ok m) :
    m.determinant = 1 := by
  unfold quarterTurns at h
  split at h <;> cases h <;> simp [determinant, identity]

theorem determinant_rotate [Rotation Rat] (h : Rotation.OnCircle) (degrees : Rat) :
    (rotate degrees).determinant = 1 := by
  rw [← h degrees]
  simp only [determinant, rotate]
  ring

/-- Acting on a space of another aspect ratio changes no determinant. -/
theorem determinant_inAspect (m : Affine Rat) {ratio : Rat} (h : ratio ≠ 0) :
    (m.inAspect ratio).determinant = m.determinant := by
  simp only [inAspect, determinant_compose, determinant_scale]
  field_simp

theorem determinant_aboutCenter (m : Affine Rat) : m.aboutCenter.determinant = m.determinant := by
  simp [aboutCenter]

theorem adjugate_compose {m : Affine Rat} (h : m.determinant ≠ 0) :
    m.adjugate.compose m = identity := by
  unfold determinant at h
  simp only [compose, adjugate, identity, determinant, mk.injEq]
  refine ⟨?_, ?_, ?_, ?_, ?_, ?_⟩ <;> field_simp <;> ring

theorem compose_adjugate {m : Affine Rat} (h : m.determinant ≠ 0) :
    m.compose m.adjugate = identity := by
  unfold determinant at h
  simp only [compose, adjugate, identity, determinant, mk.injEq]
  refine ⟨?_, ?_, ?_, ?_, ?_, ?_⟩ <;> field_simp <;> ring

end Affine

namespace Region

/-! ## Chains of steps -/

section

variable {K : Type} [Coefficient K]

/-- Quarter turns are an orientation of their own. -/
theorem rotate_eq_orientOn (r : Region K) (n : Nat) :
    r.rotate n = r.orientOn (4 - n % 4) true .upright := by
  have hn : (4 - (4 - n % 4) % 4) % 4 % 4 = n % 4 := by omega
  have h : r.rotate ((4 - (4 - n % 4) % 4) % 4) = r.rotate n := by
    unfold rotate
    rw [hn]
  unfold orientOn
  rw [if_pos rfl, h]
  cases r.rotate n <;> rfl

/-- What crops, orientations and free rotations keep, every chain of steps keeps. -/
theorem steps_inv [Rotation K] {P : Region K → Prop} {l : List (Step K)}
    (crop : ∀ {r r' : Region K} {rect exchanged}, .crop rect exchanged ∈ l → P r →
      r.crop rect exchanged = .ok r' → P r')
    (orientOn : ∀ {r r' : Region K} {displayTurns locked o}, P r →
      r.orientOn displayTurns locked o = .ok r' → P r')
    (tilt : ∀ {r r' : Region K} {degrees}, .tilt degrees ∈ l → P r → r.tilt degrees = .ok r' → P r')
    {r r' : Region K} (hr : P r) (h : r.steps l = .ok r') : P r' := by
  induction l generalizing r with
  | nil =>
    cases h
    exact hr
  | cons st l ih =>
    unfold steps at h
    rw [List.foldlM_cons] at h
    obtain ⟨r₁, h₁, h⟩ := bind_eq_ok.1 h
    refine ih (fun hm => crop (List.mem_cons_of_mem _ hm))
      (fun hm => tilt (List.mem_cons_of_mem _ hm)) ?_ h
    cases st with
    | crop rect exchanged => exact crop List.mem_cons_self hr h₁
    | rotate turns => exact orientOn hr ((rotate_eq_orientOn r turns).symm.trans h₁)
    | orient o =>
      have ho : r.orientOn 0 false o = .ok r₁ := h₁
      exact orientOn hr ho
    | orientOn displayTurns locked o => exact orientOn hr h₁
    | tilt degrees => exact tilt List.mem_cons_self hr h₁

end

/-! ## Areas -/

/-- All steps so far as one transform. -/
def forward (r : Region Rat) : Affine Rat := r.transform.getD Affine.identity

@[simp] theorem forward_append (r : Region Rat) (step : Affine Rat) (s : Size) :
    (r.append step s).forward = step.compose r.forward := by
  unfold forward append
  cases r.transform with
  | none => exact (Affine.compose_identity step).symm
  | some m => rfl

/-- The steps can be undone, and while there are pixels, an area of the source and its image in the
region are as many pixels of the one as of the other. -/
structure KeepsArea (source : Size) (r : Region Rat) : Prop where
  regular : r.forward.determinant ≠ 0
  area : r.size.isEmpty = false →
    |r.forward.determinant| * ((r.size.width : Rat) * r.size.height) = source.width * source.height

theorem keepsArea_whole (s : Size) : KeepsArea s (whole s) := by
  constructor
  · simp [forward, whole]
  · simp [forward, whole]

namespace KeepsArea

variable {source : Size} {r r' : Region Rat}

/-- One more transform keeps areas if its determinant makes up for the change of the size. -/
theorem append (h : KeepsArea source r) {step : Affine Rat} {s : Size} (hd : step.determinant ≠ 0)
    (hs : s.isEmpty = false → r.size.isEmpty = false ∧
      |step.determinant| * ((s.width : Rat) * s.height) = r.size.width * r.size.height) :
    KeepsArea source (r.append step s) where
  regular := by
    rw [forward_append, Affine.determinant_compose]
    exact mul_ne_zero hd h.regular
  area hn := by
    obtain ⟨hr, hsize⟩ := hs hn
    rw [forward_append, Affine.determinant_compose, abs_mul]
    calc |step.determinant| * |r.forward.determinant| * ((s.width : Rat) * s.height)
        = |r.forward.determinant| * (|step.determinant| * (s.width * s.height)) := by ring
      _ = |r.forward.determinant| * (r.size.width * r.size.height) := by rw [hsize]
      _ = source.width * source.height := h.area hr

theorem rotate (h : KeepsArea source r) {n : Nat} (hr : r.rotate n = .ok r') :
    KeepsArea source r' := by
  unfold Region.rotate at hr
  dsimp only at hr
  split at hr
  · cases hr
    exact h
  · obtain ⟨step, hstep, hr⟩ := bind_eq_ok.1 hr
    cases hr
    have hd := Affine.determinant_of_quarterTurns hstep
    refine h.append (by rw [hd]; exact one_ne_zero) fun hn => ?_
    rw [hd, abs_one, one_mul]
    split at hn
    · next odd =>
      rw [Size.isEmpty_rotate] at hn
      rw [if_pos odd]
      exact ⟨hn, mul_comm _ _⟩
    · next even =>
      rw [if_neg even]
      exact ⟨hn, rfl⟩

theorem orient (h : KeepsArea source r) {o : Orientation} (hr : r.orient o = .ok r') :
    KeepsArea source r' := by
  unfold Region.orient at hr
  refine rotate ?_ hr
  split
  · refine h.append ?_ fun hn => ⟨hn, ?_⟩
    · simp
    · simp
  · exact h

theorem orientOn (h : KeepsArea source r) {displayTurns : Nat} {locked : Bool} {o : Orientation}
    (hr : r.orientOn displayTurns locked o = .ok r') : KeepsArea source r' := by
  cases locked with
  | false => exact h.orient hr
  | true =>
    obtain ⟨r₁, h₁, hr⟩ := bind_eq_ok.1 hr
    exact (h.rotate h₁).orient hr

/-- A crop enlarges the rectangle to the whole region, which makes up for the pixels cut away. -/
theorem cropped (h : KeepsArea source r) {rect : Rect} (hr : Crops r rect r') :
    KeepsArea source r' := by
  cases hr with
  | emptied _ empty =>
    refine ⟨h.regular, fun hn => ?_⟩
    rw [empty] at hn
    cases hn
  | @cut step _ full moved =>
    have hs := full_of_cropStep moved
    obtain ⟨hW, hH⟩ := Size.cast_pos hs
    obtain ⟨hw, hh⟩ := Size.cast_pos full
    obtain ⟨hcw, hch⟩ := Rect.cast_span full
    have hd : step.determinant =
        (r.size.width / rect.span.width) * (r.size.height / rect.span.height) := by
      obtain ⟨-, rfl⟩ := Affine.ontoUnitSquare_eq_ok_iff.1 moved
      rw [hcw, hch]
      simp [Scalar.ofNat, Scalar.ofInt]
    have hpos : 0 < step.determinant := by
      rw [hd]
      positivity
    refine h.append hpos.ne' fun _ => ⟨hs, ?_⟩
    rw [abs_of_pos hpos, hd]
    field_simp

theorem crop (h : KeepsArea source r) {rect : Rect} {exchanged : Bool}
    (hr : r.crop rect exchanged = .ok r') : KeepsArea source r' :=
  h.cropped (crop_cases hr)

theorem tilt [Rotation Rat] (circle : Rotation.OnCircle) (h : KeepsArea source r) {degrees : Rat}
    (hr : r.tilt degrees = .ok r') : KeepsArea source r' := by
  unfold Region.tilt at hr
  split at hr
  · cases hr
  split at hr
  · cases hr
    exact h
  · next hskip =>
    cases hr
    simp only [Bool.or_eq_true, not_or, Bool.not_eq_true] at hskip
    obtain ⟨hw, hh⟩ := Size.cast_pos hskip.2
    have hratio : (r.size.width : Rat) / r.size.height ≠ 0 := by positivity
    have hd : (tiltStep r.size degrees).determinant = 1 := by
      unfold tiltStep
      rw [Affine.determinant_aboutCenter]
      exact (Affine.determinant_inAspect _ hratio).trans (Affine.determinant_rotate circle _)
    refine h.append (by rw [hd]; exact one_ne_zero) fun hn => ⟨hn, ?_⟩
    rw [hd, abs_one, one_mul]

end KeepsArea

/-- A region whose steps can be undone has an inverse, and it undoes them from either side. -/
theorem KeepsArea.inverse {source : Size} {r : Region Rat} (h : KeepsArea source r) :
    ∃ back, r.inverse = .ok back ∧
      (back.getD Affine.identity).compose r.forward = Affine.identity ∧
      r.forward.compose (back.getD Affine.identity) = Affine.identity := by
  have hd := h.regular
  unfold forward at hd ⊢
  unfold Region.inverse
  cases ht : r.transform with
  | none => exact ⟨none, rfl, Affine.compose_identity _, Affine.compose_identity _⟩
  | some m =>
    rw [ht] at hd
    have hi : m.inverse = .ok m.adjugate := Affine.inverse_eq_ok_iff.2 ⟨hd, rfl⟩
    refine ⟨some m.adjugate, ?_, Affine.adjugate_compose hd, Affine.compose_adjugate hd⟩
    simp only [hi]
    rfl

/-- Every chain keeps areas, if the angles that it rotates by lie on the unit circle. -/
theorem keepsArea_of_steps [Rotation Rat] {source : Size} {l : List (Step Rat)}
    (circle : ∀ {degrees}, .tilt degrees ∈ l → Rotation.OnCircle) {r : Region Rat}
    (h : (whole source).steps l = .ok r) : KeepsArea source r := by
  refine steps_inv ?_ ?_ ?_ (keepsArea_whole source) h
  · exact fun _ hr h => hr.crop h
  · exact fun hr h => hr.orientOn h
  · exact fun hm hr h => hr.tilt (circle hm) h

/-- In exact numbers, every chain of steps that succeed can be undone: the transform that they add up to
has a determinant that is not zero, and if the region has pixels, the determinant makes the pixels of the
region as many as those of the source. The inverse can always be had, and it undoes the transform from
either side. -/
theorem steps_invertible [Rotation Rat] (circle : Rotation.OnCircle) (source : Size)
    (l : List (Step Rat)) {r : Region Rat} (h : (whole source).steps l = .ok r) :
    r.forward.determinant ≠ 0 ∧
      (r.size.isEmpty = false → |r.forward.determinant| * ((r.size.width : Rat) * r.size.height) =
        source.width * source.height) ∧
      ∃ back, r.inverse = .ok back ∧
        (back.getD Affine.identity).compose r.forward = Affine.identity ∧
        r.forward.compose (back.getD Affine.identity) = Affine.identity := by
  have hkeeps := keepsArea_of_steps (fun _ => circle) h
  exact ⟨hkeeps.regular, hkeeps.area, hkeeps.inverse⟩

/-! ## A slanted chain -/

/-- One angle for turns to the left and another one for turns to the right. -/
local instance slantedRotation : Rotation Rat :=
  ⟨fun degrees => if degrees < 0 then (3 / 5, -4 / 5) else (5 / 13, 12 / 13)⟩

theorem onCircle_slanted : Rotation.OnCircle := by
  intro degrees
  dsimp only [Rotation.turn]
  split <;> norm_num

/-- A crop, two rotations, a crop of what is rotated, and orientations in between. -/
def slant : List (Step Rat) :=
  [.crop ⟨1, 0, 11, 6⟩ false, .tilt 30, .rotate 1, .crop ⟨2, 1, 8, 5⟩ true,
    .orientOn 3 true Orientation.upright.mirrored.turned, .tilt (-45),
    .orient Orientation.upright.turned.turned]

/-- What they make of a source of 12 by 8 pixels. -/
def slanted : Region Rat :=
  ⟨⟨4, 6⟩, some ⟨-168 / 65, -66 / 65, -66 / 65, 224 / 195, 631 / 260, 113 / 390⟩⟩

theorem steps_slant : (whole ⟨12, 8⟩).steps slant = .ok slanted := by decide +kernel

theorem steps_invertible_slant :
    Rotation.OnCircle ∧ (whole ⟨12, 8⟩).steps slant = .ok slanted ∧ slanted.size.isEmpty = false ∧
      slanted.forward.determinant ≠ 0 ∧
      |slanted.forward.determinant| * (((4 : Nat) : Rat) * (6 : Nat)) = (12 : Nat) * (8 : Nat) ∧
      ∃ back, slanted.inverse = .ok back ∧
        (back.getD Affine.identity).compose slanted.forward = Affine.identity ∧
        slanted.forward.compose (back.getD Affine.identity) = Affine.identity := by
  obtain ⟨hd, harea, hback⟩ := steps_invertible onCircle_slanted ⟨12, 8⟩ slant steps_slant
  exact ⟨onCircle_slanted, steps_slant, rfl, hd, harea rfl, hback⟩

end Region

end RegionCapture
