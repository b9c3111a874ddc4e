import RegionCapture.Proofs.Document.Geometry
import RegionCapture.Proofs.Region.Sizes
import RegionCapture.Proofs.Session.Planned
import RegionCapture.Proofs.Size.Words
/-!
# Plans as documents

The layout of a plan has a document that is read as a layout (`documents_decode`). Its coefficients come
from inversions, which give nothing but finite numbers, and its whole numbers stay in the range of their
fields if the display and the output do.
-/

namespace RegionCapture

open Json

/-! ## Finite coefficients -/

theorem Affine.isFinite_of_inverse {K : Type} [Coefficient K] {m n : Affine K}
    (h : m.inverse = .ok n) : n.isFinite = true := by
  unfold inverse at h
  dsimp only at h
  split at h
  · cases h
  · split at h
    · cases h
    · next hfinite =>
      cases h
      simpa using hfinite

theorem Affine.isFinite_identity : (identity : Affine Float).isFinite = true := by
  decide +kernel

namespace Plan

theorem isFinite_input {r : Region Float} {inverse : Option (Affine Float)}
    (h : r.inverse = .ok inverse) (size : Size) : (input size inverse).inverse.isFinite = true := by
  cases inverse with
  | none => exact Affine.isFinite_identity
  | some m =>
    unfold Region.inverse at h
    split at h
    · cases h
    · obtain ⟨n, hn, heq⟩ := map_eq_ok.1 h
      obtain rfl := Option.some.inj heq
      exact Affine.isFinite_of_inverse hn

/-- No plan has a coefficient that is infinite or undefined. -/
theorem Makes.isFinite {o : Options Float} {display : DisplayState} {plan : Plan Float}
    (h : Makes o display plan) : ∀ p ∈ plan.layout.placements, p.inverse.isFinite = true := by
  intro p hp
  cases h with
  | @single r inverse whole region back =>
    rcases Layout.mem_placements.1 hp with ⟨⟨⟩⟩ | ⟨⟨⟩⟩
    exact isFinite_input back r.size
  | @pair r1 r2 inverse1 inverse2 crop2 split region1 region2 back1 back2 =>
    rcases Layout.mem_placements.1 hp with ⟨⟨⟩⟩ | ⟨⟨⟩⟩
    · exact isFinite_input back1 r1.size.align
    · exact isFinite_input back2 r2.size.align

end Plan

/-! ## Numbers in range -/

theorem Size.ranged_iff {s : Size} : s.Ranged ↔ s.longSide ≤ Text.maxNat32 :=
  ⟨fun h => Nat.max_le.2 ⟨h.width, h.height⟩, fun h => ⟨(Nat.max_le.1 h).1, (Nat.max_le.1 h).2⟩⟩

theorem Orientation.longSide_shown (o : Orientation) (displayTurns : Nat) (locked : Bool) (s : Size) :
    (o.shown displayTurns locked Size.rotate id s).longSide = s.longSide :=
  o.apply_shown displayTurns locked Size.longSide_rotate (fun _ => rfl) s

/-- The sides of a rectangle are signed numbers of 32 bits. -/
theorem Rect.longSide_span_le (r : Rect) : r.span.longSide ≤ Text.maxInt32 :=
  Nat.max_le.2 ⟨Int.toNat_le.2 (signed32_le _), Int.toNat_le.2 (signed32_le _)⟩

namespace Plan

variable {o : Options Float} {display : DisplayState} {r : Region Float}

theorem longSide_of_region {crop : Option Rect} (h : region o display crop = .ok r) :
    r.size.longSide = (areaSize display crop).longSide := by
  rw [size_of_region h, Orientation.longSide_shown]

/-- A region that is cut out has sides that are signed numbers of 32 bits. -/
theorem longSide_cropped_le {crop : Rect} (h : region o display (some crop) = .ok r) :
    r.size.longSide ≤ Text.maxInt32 := by
  rw [longSide_of_region h]
  exact Rect.longSide_span_le _

theorem ranged_of_region {crop : Option Rect} (hd : display.size.Ranged)
    (h : region o display crop = .ok r) : r.size.Ranged := by
  rw [Size.ranged_iff]
  cases crop with
  | none =>
    rw [longSide_of_region h]
    exact Size.ranged_iff.1 hd
  | some rect => exact (longSide_cropped_le h).trans (by decide)

theorem ranged_align_of_region {crop : Rect} (h : region o display (some crop) = .ok r) :
    r.size.align.Ranged := by
  have hr := Nat.max_le.1 (longSide_cropped_le h)
  have hbound : Text.maxNat32 = 2 * Text.maxInt32 + 1 := rfl
  have hlarge : 7 ≤ Text.maxInt32 := by decide
  have hwidth := roundUp8_lt r.size.width
  have hheight := roundUp8_lt r.size.height
  exact ⟨by dsimp only [Size.align]; omega, by dsimp only [Size.align]; omega⟩

/-- If the display and the output are in range, so is the layout. -/
theorem Makes.ranged {plan : Plan Float} (h : Makes o display plan) (hd : plan.display.size.Ranged)
    (hc : plan.layout.combined.Ranged) : plan.layout.Ranged := by
  refine ⟨hc, fun p hp => ?_⟩
  cases h with
  | @single r inverse whole region back =>
    rcases Layout.mem_placements.1 hp with ⟨⟨⟩⟩ | ⟨⟨⟩⟩
    refine ⟨?_, Nat.zero_le _, Nat.zero_le _⟩
    dsimp only
    split
    · exact ranged_of_region hd region
    · exact hc
  | @pair r1 r2 inverse1 inverse2 crop2 split region1 region2 back1 back2 =>
    rcases Layout.mem_placements.1 hp with ⟨⟨⟩⟩ | ⟨⟨⟩⟩
    · exact ⟨ranged_align_of_region region1, Nat.zero_le _, Nat.zero_le _⟩
    · -- the first region's strip is a part of the output
      refine ⟨ranged_align_of_region region2, ?_, Nat.zero_le _⟩
      exact ((Nat.le_add_right _ _).trans (le_roundUp8 _)).trans hc.width

end Plan

namespace Session

theorem makes_of_prepare {K L : Type} [Coefficient K] [Rotation K] {s : Session K L}
    {source : DisplaySource} {plan : Plan K} (h : (s.prepare source).1 = .ok plan) :
    ∃ o display, Plan.Makes o display plan := by
  have hc := s.prepare_cases source
  generalize source s.options.displayId = answer, s.prepare source = out at hc h
  cases hc with
  | @planned display made _ hmade =>
    cases h
    exact ⟨_, display, Plan.make_cases hmade⟩
  | _ => cases h

variable {L : Type}

/-- Sizes, rectangles, positions, viewports and displays are read back from their documents, and places
and layouts as well if the coefficients of their transforms are read back from their texts. In the layout
of every plan that is prepared all coefficients are finite, so that its document is read as a layout, as
long as the sides of the display and of the output are numbers of 32 bits. -/
theorem documents_decode :
    (∀ s : Size, s.Ranged → RoundTrips Size.ofJson? Size.toJson s) ∧
    (∀ r : Rect, r.Ranged → RoundTrips Rect.ofJson? Rect.toJson r) ∧
    (∀ p : Position, p.Ranged → RoundTrips Position.ofJson? Position.toJson p) ∧
    (∀ v : Viewport, v.Ranged → RoundTrips Viewport.ofJson? Viewport.toJson v) ∧
    (∀ d : DisplayState, d.Ranged → RoundTrips DisplayState.ofJson? DisplayState.toJson d) ∧
    (∀ p : Placement Float, p.Ranged → p.inverse.Faithful →
      RoundTrips Placement.ofJson? Placement.toJson p) ∧
    (∀ l : Layout Float, l.Ranged → (∀ p ∈ l.placements, p.inverse.Faithful) →
      RoundTrips Layout.ofJson? Layout.toJson l) ∧
    ∀ (source : DisplaySource) (s : Session Float L) (plan : Plan Float),
      (s.prepare source).1 = .ok plan →
      (∀ p ∈ plan.layout.placements, ∀ x ∈ p.inverse.coefficients, x.isFinite = true) ∧
      (plan.display.size.Ranged → plan.layout.combined.Ranged →
        (parse? Layout.ofJson? plan.layout.toJson.compact).isSome = true) := by
  refine ⟨fun s hs => ?_, fun r hr => ?_, fun p hp => ?_, fun v hv => ?_, fun d hd => ?_,
    fun p hp hm => ?_, fun l hl hm => ?_, fun source s plan hplan => ?_⟩
  · exact roundTrips_of s.legible_toJson (Size.ofJson?_toJson hs)
  · exact roundTrips_of r.legible_toJson (Rect.ofJson?_toJson hr)
  · exact roundTrips_of p.legible_toJson (Position.ofJson?_toJson hp)
  · exact roundTrips_of v.legible_toJson (Viewport.ofJson?_toJson hv)
  · exact roundTrips_of d.legible_toJson (DisplayState.ofJson?_toJson hd)
  · exact roundTrips_of p.legible_toJson (Placement.ofJson?_toJson_of_faithful hp hm)
  · exact roundTrips_of l.legible_toJson (Layout.ofJson?_toJson_of_faithful hl hm)
  · obtain ⟨o, display, hmade⟩ := makes_of_prepare hplan
    have hfinite := hmade.isFinite
    refine ⟨fun p hp => List.all_eq_true.1 (hfinite p hp), fun hd hc => ?_⟩
    rw [parse?_compact _ plan.layout.legible_toJson]
    exact Layout.isSome_ofJson?_toJson (hmade.ranged hd hc) hfinite

/-- A part of a picture, turned by thirty degrees. -/
def turnedPart : Placement Float :=
  ⟨⟨0.8660254037844387, 0.5, -0.5, 0.8660254037844387, 0.25, -1e-7⟩, ⟨16, 8⟩, 0, 0⟩

/-- A turned part beside one that is stretched almost without end. -/
def turnedLayout : Layout Float :=
  ⟨⟨32, 8⟩, some turnedPart, some ⟨⟨-1, 0, 0, 1e-300, 1, 1.5e300⟩, ⟨9, 3⟩, 16, 0⟩⟩

/-- A session that flips its display and turns it. -/
def turnedSession : Session Float Float32 :=
  { untouched with options := { Options.standard with orientation := ⟨true, Fin.last 3⟩ } }

theorem documents_decode_turned :
    RoundTrips Size.ofJson? Size.toJson ⟨1920, 1080⟩ ∧
    RoundTrips Rect.ofJson? Rect.toJson ⟨-8, 0, 2147483647, 16⟩ ∧
    RoundTrips Position.ofJson? Position.toJson ⟨⟨-1, 7⟩, ⟨16, 8⟩⟩ ∧
    RoundTrips Viewport.ofJson? Viewport.toJson ⟨16, 0, 4294967295, 8⟩ ∧
    RoundTrips DisplayState.ofJson? DisplayState.toJson turnedDisplay.state ∧
    RoundTrips Placement.ofJson? Placement.toJson turnedPart ∧
    RoundTrips Layout.ofJson? Layout.toJson turnedLayout ∧
    ∃ plan, (turnedSession.prepare turnedDisplay.source).1 = .ok plan ∧
      plan.layout.combined = ⟨8, 16⟩ ∧
      (∀ p ∈ plan.layout.placements, ∀ x ∈ p.inverse.coefficients, x.isFinite = true) ∧
      (parse? Layout.ofJson? plan.layout.toJson.compact).isSome = true := by
  obtain ⟨hsize, hrect, hposition, hviewport, hdisplay, hplace, hlayout, hprepare⟩ :=
    documents_decode (L := Float32)
  have hprepared : (turnedSession.prepare turnedDisplay.source).1.map
      (fun plan => (plan.display.size, plan.layout.combined)) = .ok (⟨16, 8⟩, ⟨8, 16⟩) := by
    decide +kernel
  obtain ⟨plan, hplan, hsizes⟩ := map_eq_ok.1 hprepared
  obtain ⟨hd, hc⟩ := Prod.mk.inj hsizes
  obtain ⟨hfinite, hread⟩ := hprepare turnedDisplay.source turnedSession plan hplan
  have hpart : turnedPart.Ranged := ⟨⟨by decide, by decide⟩, by decide, by decide⟩
  have hlayouts : turnedLayout.Ranged := by
    refine ⟨⟨by decide, by decide⟩, fun p hp => ?_⟩
    rcases Layout.mem_placements.1 hp with ⟨⟨⟩⟩ | ⟨⟨⟩⟩
    · exact hpart
    · exact ⟨⟨by decide, by decide⟩, by decide, by decide⟩
  refine ⟨hsize _ ⟨by decide, by decide⟩, hrect _ ⟨by decide, by decide, by decide, by decide⟩,
    hposition _ ⟨⟨by decide, by decide⟩, by decide, by decide⟩,
    hviewport _ ⟨by decide, by decide, by decide, by decide⟩,
    hdisplay _ ⟨by decide, ⟨by decide, by decide⟩, by decide, by decide, by decide⟩,
    hplace _ hpart (by decide +kernel), hlayout _ hlayouts (by decide +kernel),
    plan, hplan, hc, hfinite, hread ?_ ?_⟩
  · rw [hd]
    exact ⟨by decide, by decide⟩
  · rw [hc]
    exact ⟨by decide, by decide⟩

end Session

end RegionCapture
