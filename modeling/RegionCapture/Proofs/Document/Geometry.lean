import RegionCapture.Document.Geometry
import RegionCapture.Proofs.Document.Options
import RegionCapture.Proofs.Json.Doubles
import RegionCapture.Proofs.Layout.Strips
/-!
# Geometry read back

Sizes, rectangles, positions, viewports and displays are read back from their documents if their numbers
are in the range of their fields. Places and layouts are read back if the coefficients of their transforms
are read back from their texts, and as long as the coefficients are finite, they are read as something
(`Layout.isSome_ofJson?_toJson`).
-/

namespace RegionCapture

open Json

namespace Json

/-- What a text stands for as a document of some kind. -/
def parse? {α : Type} (decode : Json → Option α) (text : String) : Option α :=
  (read? (symbolsOfText text)).bind decode

/-- A value that is read back from its document, written on one line. -/
def RoundTrips {α : Type} (decode : Json → Option α) (encode : α → Json) (a : α) : Prop :=
  parse? decode (encode a).compact = some a

theorem parse?_compact {α : Type} (decode : Json → Option α) {v : Json} (h : Legible v) :
    parse? decode v.compact = decode v := by
  rw [parse?, read?_compact h, Option.bind_some]

theorem roundTrips_of {α : Type} {decode : Json → Option α} {encode : α → Json} {a : α}
    (hl : Legible (encode a)) (h : decode (encode a) = some a) : RoundTrips decode encode a :=
  (parse?_compact decode hl).trans h

theorem legible_orNull {α : Type} {encode : α → Json} {a : Option α}
    (h : ∀ b, a = some b → Legible (encode b)) : Legible (orNull encode a) := by
  cases a with
  | none => exact .null
  | some b => exact h b rfl

end Json

/-! ## Sizes and positions -/

namespace Size

/-- Both sides are numbers of 32 bits. -/
structure Ranged (s : Size) : Prop where
  width : s.width ≤ Text.maxNat32
  height : s.height ≤ Text.maxNat32

theorem legible_toJson (s : Size) : Legible s.toJson :=
  legible_record (by simp [legible_nat])

theorem ofJson?_toJson {s : Size} (h : s.Ranged) : ofJson? s.toJson = some s := by
  have hfields : s.toJson.allFields? ["width", "height"] = some [.nat s.width, .nat s.height] :=
    allFields?_record _ (by simp)
  rw [ofJson?, hfields]
  simp [nat?_nat h.width, nat?_nat h.height]

end Size

theorem Rect.legible_toJson (r : Rect) : Legible r.toJson :=
  legible_record (by simp [legible_int])

namespace PixelPoint

/-- Both coordinates are signed numbers of 32 bits. -/
structure Ranged (p : PixelPoint) : Prop where
  x : IsInt32 p.x
  y : IsInt32 p.y

theorem legible_toJson (p : PixelPoint) : Legible p.toJson :=
  legible_record (by simp [legible_int])

theorem ofJson?_toJson {p : PixelPoint} (h : p.Ranged) : ofJson? p.toJson = some p := by
  have hfields : p.toJson.allFields? ["x", "y"] = some [.int p.x, .int p.y] :=
    allFields?_record _ (by simp)
  rw [ofJson?, hfields]
  simp [int32?_int h.x, int32?_int h.y]

end PixelPoint

namespace Position

/-- Every number is in the range of its field. -/
structure Ranged (p : Position) : Prop where
  point : p.point.Ranged
  screen : p.screen.Ranged

theorem legible_toJson (p : Position) : Legible p.toJson :=
  legible_record (by simp [p.point.legible_toJson, p.screen.legible_toJson])

theorem ofJson?_toJson {p : Position} (h : p.Ranged) : ofJson? p.toJson = some p := by
  have hfields : p.toJson.allFields? ["point", "screen_size"] =
      some [p.point.toJson, p.screen.toJson] :=
    allFields?_record _ (by simp)
  rw [ofJson?, hfields]
  simp [PixelPoint.ofJson?_toJson h.point, Size.ofJson?_toJson h.screen]

end Position

namespace Viewport

/-- Every number is in the range of its field. -/
structure Ranged (v : Viewport) : Prop where
  x : v.x ≤ Text.maxNat32
  y : v.y ≤ Text.maxNat32
  width : v.width ≤ Text.maxNat32
  height : v.height ≤ Text.maxNat32

theorem legible_toJson (v : Viewport) : Legible v.toJson :=
  legible_record (by simp [legible_nat])

theorem ofJson?_toJson {v : Viewport} (h : v.Ranged) : ofJson? v.toJson = some v := by
  have hfields : v.toJson.allFields? ["x", "y", "width", "height"] =
      some [.nat v.x, .nat v.y, .nat v.width, .nat v.height] :=
    allFields?_record _ (by simp)
  rw [ofJson?, hfields]
  simp [nat?_nat h.x, nat?_nat h.y, nat?_nat h.width, nat?_nat h.height]

end Viewport

namespace DisplayState

/-- Every number is in the range of its field. -/
structure Ranged (d : DisplayState) : Prop where
  id : d.id ≤ Text.maxNat32
  size : d.size.Ranged
  turns : d.turns ≤ 255
  layerStack : d.layerStack ≤ Text.maxNat32
  flags : d.flags ≤ Text.maxNat32

theorem legible_toJson (d : DisplayState) : Legible d.toJson :=
  legible_record (by simp [legible_nat, d.size.legible_toJson])

theorem ofJson?_toJson {d : DisplayState} (h : d.Ranged) : ofJson? d.toJson = some d := by
  have hfields : d.toJson.allFields? ["display_id", "size", "rotation", "layer_stack", "flags"] =
      some [.nat d.id, d.size.toJson, .nat d.turns, .nat d.layerStack, .nat d.flags] :=
    allFields?_record _ (by simp)
  rw [ofJson?, hfields]
  simp [nat?_nat h.id, Size.ofJson?_toJson h.size, nat?_nat h.turns, nat?_nat h.layerStack,
    nat?_nat h.flags]

end DisplayState

/-! ## Transforms -/

namespace Affine

theorem legible_toJson (m : Affine Float) : Legible m.toJson := by
  refine .array fun v hv => ?_
  obtain ⟨x, -, rfl⟩ := List.mem_map.1 hv
  exact legible_double x

/-- The coefficients are read one by one. -/
theorem ofJson?_toJson (m : Affine Float) : ofJson? m.toJson = (do
    let a ← (double m.a).double?
    let b ← (double m.b).double?
    let c ← (double m.c).double?
    let d ← (double m.d).double?
    let e ← (double m.e).double?
    let f ← (double m.f).double?
    pure ⟨a, b, c, d, e, f⟩) := by
  simp only [ofJson?, toJson, coefficients, List.map_cons, List.map_nil, List.mapM_cons,
    List.mapM_nil]
  cases (double m.a).double? <;> cases (double m.b).double? <;> cases (double m.c).double? <;>
    cases (double m.d).double? <;> cases (double m.e).double? <;>
    cases (double m.f).double? <;> rfl

/-- Every coefficient is read back from its text. -/
def Faithful (m : Affine Float) : Prop := ∀ x ∈ m.coefficients, Json.Faithful x

theorem faithful_iff {m : Affine Float} :
    m.Faithful ↔ ∀ x ∈ m.coefficients, (double x).double? = some x :=
  forall₂_congr fun _ _ => Json.faithful_iff

instance (m : Affine Float) : Decidable m.Faithful := decidable_of_iff' _ faithful_iff

theorem ofJson?_toJson_of_faithful {m : Affine Float} (h : m.Faithful) :
    ofJson? m.toJson = some m := by
  have hread := faithful_iff.1 h
  simp only [coefficients, List.forall_mem_cons] at hread
  obtain ⟨ha, hb, hc, hd, he, hf, -⟩ := hread
  simp [ofJson?_toJson, ha, hb, hc, hd, he, hf]

theorem isSome_ofJson?_toJson {m : Affine Float} (h : m.isFinite = true) :
    (ofJson? m.toJson).isSome = true := by
  have hread : ∀ x ∈ m.coefficients, ∃ y, (double x).double? = some y := fun x hx =>
    Option.isSome_iff_exists.1 (isSome_double?_double (List.all_eq_true.1 h x hx))
  simp only [coefficients, List.forall_mem_cons] at hread
  obtain ⟨⟨a, ha⟩, ⟨b, hb⟩, ⟨c, hc⟩, ⟨d, hd⟩, ⟨e, he⟩, ⟨f, hf⟩, -⟩ := hread
  simp [ofJson?_toJson, ha, hb, hc, hd, he, hf]

end Affine

/-! ## Layouts -/

namespace Placement

/-- Every whole number is in the range of its field. -/
structure Ranged (p : Placement Float) : Prop where
  size : p.size.Ranged
  x : p.x ≤ Text.maxNat32
  y : p.y ≤ Text.maxNat32

theorem legible_toJson (p : Placement Float) : Legible p.toJson :=
  legible_record (by simp [p.inverse.legible_toJson, p.size.legible_toJson, legible_nat])

/-- All of a place but its transform is read back. -/
theorem ofJson?_toJson {p : Placement Float} (h : p.Ranged) :
    ofJson? p.toJson = (Affine.ofJson? p.inverse.toJson).map fun m => { p with inverse := m } := by
  have hfields : p.toJson.allFields? ["inverse_transform", "output_size", "x", "y"] =
      some [p.inverse.toJson, p.size.toJson, .nat p.x, .nat p.y] :=
    allFields?_record _ (by simp)
  rw [ofJson?, hfields]
  cases hm : Affine.ofJson? p.inverse.toJson <;>
    simp [hm, Size.ofJson?_toJson h.size, nat?_nat h.x, nat?_nat h.y]

theorem ofJson?_toJson_of_faithful {p : Placement Float} (h : p.Ranged) (hm : p.inverse.Faithful) :
    ofJson? p.toJson = some p := by
  rw [ofJson?_toJson h, Affine.ofJson?_toJson_of_faithful hm]
  rfl

theorem isSome_ofJson?_toJson {p : Placement Float} (h : p.Ranged)
    (hm : p.inverse.isFinite = true) : (ofJson? p.toJson).isSome = true := by
  rw [ofJson?_toJson h, Option.isSome_map]
  exact Affine.isSome_ofJson?_toJson hm

/-- A place that is not taken is `null`. -/
theorem optional?_orNull_of_faithful {p : Option (Placement Float)}
    (h : ∀ q, p = some q → q.Ranged ∧ q.inverse.Faithful) :
    (orNull toJson p).optional? ofJson? = some p := by
  cases p with
  | none => rfl
  | some q =>
    obtain ⟨hq, hm⟩ := h q rfl
    exact congrArg (Option.map some) (ofJson?_toJson_of_faithful hq hm)

theorem isSome_optional?_orNull {p : Option (Placement Float)}
    (h : ∀ q, p = some q → q.Ranged ∧ q.inverse.isFinite = true) :
    ((orNull toJson p).optional? ofJson?).isSome = true := by
  cases p with
  | none => rfl
  | some q =>
    obtain ⟨hq, hm⟩ := h q rfl
    exact Option.isSome_map.trans (isSome_ofJson?_toJson hq hm)

end Placement

namespace Layout

/-- Every whole number is in the range of its field. -/
structure Ranged (l : Layout Float) : Prop where
  combined : l.combined.Ranged
  placements : ∀ p ∈ l.placements, p.Ranged

theorem legible_toJson (l : Layout Float) : Legible l.toJson := by
  have hplaces : ∀ v ∈ [orNull Placement.toJson l.region1, orNull Placement.toJson l.region2],
      Legible v := by
    simpa using ⟨legible_orNull fun p _ => p.legible_toJson,
      legible_orNull fun p _ => p.legible_toJson⟩
  exact legible_record (by simpa [l.combined.legible_toJson] using Legible.array hplaces)

theorem ofJson?_toJson {l : Layout Float} (h : l.combined.Ranged) : ofJson? l.toJson = (do
    let region1 ← (orNull Placement.toJson l.region1).optional? Placement.ofJson?
    let region2 ← (orNull Placement.toJson l.region2).optional? Placement.ofJson?
    pure ⟨l.combined, region1, region2⟩) := by
  have hfields : l.toJson.allFields? ["combined", "regions"] = some [l.combined.toJson,
      .array [orNull Placement.toJson l.region1, orNull Placement.toJson l.region2]] :=
    allFields?_record _ (by simp)
  rw [ofJson?, hfields]
  simp [Size.ofJson?_toJson h]

theorem ofJson?_toJson_of_faithful {l : Layout Float} (h : l.Ranged)
    (hm : ∀ p ∈ l.placements, p.inverse.Faithful) : ofJson? l.toJson = some l := by
  have hplace (p) (hp : p ∈ l.placements) : p.Ranged ∧ p.inverse.Faithful :=
    ⟨h.placements p hp, hm p hp⟩
  rw [ofJson?_toJson h.combined,
    Placement.optional?_orNull_of_faithful fun p hp => hplace p (mem_placements.2 (.inl hp)),
    Placement.optional?_orNull_of_faithful fun p hp => hplace p (mem_placements.2 (.inr hp))]
  rfl

theorem isSome_ofJson?_toJson {l : Layout Float} (h : l.Ranged)
    (hm : ∀ p ∈ l.placements, p.inverse.isFinite = true) : (ofJson? l.toJson).isSome = true := by
  have hplace (p) (hp : p ∈ l.placements) : p.Ranged ∧ p.inverse.isFinite = true :=
    ⟨h.placements p hp, hm p hp⟩
  obtain ⟨region1, h1⟩ := Option.isSome_iff_exists.1 (Placement.isSome_optional?_orNull
    fun p hp => hplace p (mem_placements.2 (.inl hp)))
  obtain ⟨region2, h2⟩ := Option.isSome_iff_exists.1 (Placement.isSome_optional?_orNull
    fun p hp => hplace p (mem_placements.2 (.inr hp)))
  rw [ofJson?_toJson h.combined, h1, h2]
  rfl

end Layout

end RegionCapture
