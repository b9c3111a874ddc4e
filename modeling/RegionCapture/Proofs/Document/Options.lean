import RegionCapture.Document.Capture
import RegionCapture.Proofs.Json.Decoding
/-!
# Options read back

Options are read back from the document that is written of them. Its members may stand in any order, and
those whose values are the ones by default may be left out (`Options.read_back`). Whatever is read makes
sense.
-/

namespace RegionCapture

open Json

/-- Every edge is a number of 32 bits. -/
def Rect.Ranged (r : Rect) : Prop :=
  IsInt32 r.left ∧ IsInt32 r.top ∧ IsInt32 r.right ∧ IsInt32 r.bottom

theorem Rect.ofJson?_toJson {r : Rect} (h : r.Ranged) : Rect.ofJson? r.toJson = some r := by
  obtain ⟨hl, ht, hr, hb⟩ := h
  have hnodup : ["left", "top", "right", "bottom"].Nodup := by decide
  have hfields : r.toJson.allFields? ["left", "top", "right", "bottom"] =
      some [.int r.left, .int r.top, .int r.right, .int r.bottom] :=
    allFields?_record [("left", .int r.left), ("top", .int r.top), ("right", .int r.right),
      ("bottom", .int r.bottom)] hnodup
  rw [Rect.ofJson?, hfields]
  simp [int32?_int hl, int32?_int ht, int32?_int hr, int32?_int hb]

theorem Orientation.ofName?_name (o : Orientation) : Orientation.ofName? o.name = some o := by
  obtain ⟨f, t⟩ := o
  revert f t
  decide

theorem OrientationLock.ofName?_name (l : OrientationLock) :
    OrientationLock.ofName? l.name = some l := by
  cases l <;> decide

/-- The bytes of a text are the same document as the text. -/
theorem Json.symbolsOfBytes_toUTF8 (text : String) :
    symbolsOfBytes text.toUTF8 = symbolsOfText text := by
  have htext : String.fromUTF8? text.toUTF8 = some text := dif_pos text.isValidUTF8
  rw [symbolsOfBytes, htext]

namespace Options

/-- Every number is in the range of its field. -/
structure Ranged (o : Options Float) : Prop where
  displayId : o.displayId ≤ Text.maxNat32
  maxSize : o.maxSize ≤ Text.maxNat32
  crop : ∀ r, o.crop = some r → r.Ranged
  crop2 : ∀ r, o.crop2 = some r → r.Ranged

/-- Some members of the document of options, in any order; those that are left out are as in the
document of the options by default. -/
structure Abridges (l : List (String × Json)) (o : Options Float) : Prop where
  kept : l.Subperm o.members
  omitted : ∀ m ∈ o.members, m ∉ l → m ∈ (standard : Options Float).members

theorem abridges_members (o : Options Float) : Abridges o.members o :=
  ⟨.refl _, fun _ hm hn => absurd hm hn⟩

/-! ## Members -/

theorem sublist_cropMember (name : String) (crop : Option Rect) :
    ((cropMember name crop).map Prod.fst).Sublist [name] := by
  cases crop with
  | none => exact List.nil_sublist _
  | some r => exact .refl _

theorem sublist_fieldNames (o : Options Float) : (o.members.map Prod.fst).Sublist fieldNames := by
  simp only [members, List.map_append]
  exact (((List.Sublist.refl ["display_id", "max_size"]).append
    (sublist_cropMember "crop" o.crop)).append (sublist_cropMember "crop_region2" o.crop2)).append
    (.refl ["capture_orientation_lock", "capture_orientation", "angle"])

theorem nodup_members (o : Options Float) : (o.members.map Prod.fst).Nodup :=
  (sublist_fieldNames o).nodup (by decide)

variable {l : List (String × Json)} {o : Options Float}

theorem Abridges.nodup (h : Abridges l o) : (l.map Prod.fst).Nodup := by
  obtain ⟨k, hperm, hsub⟩ := h.kept
  exact (hperm.map Prod.fst).nodup_iff.1 ((hsub.map Prod.fst).nodup (nodup_members o))

theorem value_unique {name : String} {v w : Json} (hv : (name, v) ∈ o.members)
    (hw : (name, w) ∈ o.members) : v = w := by
  have hfound := member?_of_mem (nodup_members o) hv
  rw [member?_of_mem (nodup_members o) hw] at hfound
  exact (Option.some.inj (Option.some.inj hfound)).symm

/-- A member is there, or it is left out and as in the document of the options by default. -/
theorem Abridges.member_cases (h : Abridges l o) {name : String} {v : Json}
    (hv : (name, v) ∈ o.members) : member? l name = some (some v) ∨
      member? l name = some none ∧ (name, v) ∈ (standard : Options Float).members := by
  by_cases hm : (name, v) ∈ l
  · exact .inl (member?_of_mem h.nodup hm)
  · refine .inr ⟨member?_of_not_mem fun hin => ?_, h.omitted _ hv hm⟩
    obtain ⟨⟨_, w⟩, hw, rfl⟩ := List.mem_map.1 hin
    exact hm (value_unique (h.kept.subset hw) hv ▸ hw)

/-- A field that is always written is read back, be its member there or left out. -/
theorem Abridges.given_field (h : Abridges l o) {α : Type} {decode : Json → Option α}
    {name : String} (field : Options Float → α) (encode : Options Float → Json)
    (hmem : ∀ o, (name, encode o) ∈ o.members) (hread : decode (encode o) = some (field o))
    (hstandard : decode (encode standard) = some (field standard)) :
    ∃ f, member? l name = some f ∧ given decode (field standard) f = some (field o) := by
  rcases h.member_cases (hmem o) with hfound | ⟨hfound, hdefault⟩
  · exact ⟨some (encode o), hfound, hread⟩
  · have hsame := value_unique hdefault (hmem standard)
    rw [hsame, hstandard] at hread
    exact ⟨none, hfound, hread⟩

/-- A crop is read back, be it set or not. By default none is. -/
theorem Abridges.given_crop (h : Abridges l o) {name : String} {crop : Option Rect}
    (hmem : ∀ v, (name, v) ∈ o.members ↔ ∃ r, crop = some r ∧ v = r.toJson)
    (hdefault : name ∉ (standard : Options Float).members.map Prod.fst)
    (hr : ∀ r, crop = some r → r.Ranged) :
    ∃ f, member? l name = some f ∧ given (Json.optional? Rect.ofJson?) none f = some crop := by
  cases crop with
  | none =>
    refine ⟨none, member?_of_not_mem fun hin => ?_, rfl⟩
    obtain ⟨⟨_, v⟩, hv, rfl⟩ := List.mem_map.1 hin
    obtain ⟨r, hr, -⟩ := (hmem v).1 (h.kept.subset hv)
    cases hr
  | some r =>
    rcases h.member_cases ((hmem r.toJson).2 ⟨r, rfl, rfl⟩) with hfound | ⟨-, hin⟩
    · have hread := Rect.ofJson?_toJson (hr r rfl)
      exact ⟨some r.toJson, hfound, congrArg (Option.map some) hread⟩
    · exact absurd (List.mem_map_of_mem hin) hdefault

/-! ## The document -/

theorem legible_members (o : Options Float) : ∀ m ∈ o.members, Legible m.2 := by
  have hcrop (name : String) (crop : Option Rect) : ∀ m ∈ cropMember name crop, Legible m.2 := by
    intro m hm
    cases crop with
    | none => cases hm
    | some r =>
      obtain rfl := List.mem_singleton.1 hm
      exact legible_record (by simp [legible_int])
  simp only [members, List.forall_mem_append]
  refine ⟨⟨⟨?_, hcrop _ _⟩, hcrop _ _⟩, ?_⟩
  · simp [legible_nat]
  · simp [legible_double, Json.text, Legible.text]

theorem mem_cropMember {name : String} {crop : Option Rect} {m : String × Json} :
    m ∈ cropMember name crop ↔ ∃ r, crop = some r ∧ m = (name, r.toJson) := by
  cases crop <;> simp [cropMember]

/-- The options are read back from some of their members. -/
theorem Abridges.ofJson?_record (h : Abridges l o) (hrange : o.Ranged) (hangle : Faithful o.angle) :
    ofJson? (.record l) = some o := by
  have hnames : (standard : Options Float).members.map Prod.fst =
    ["display_id", "max_size", "capture_orientation_lock", "capture_orientation", "angle"] := rfl
  obtain ⟨f₁, hf₁, hdisplay⟩ : ∃ f, member? l "display_id" = some f ∧
      given (nat? Text.maxNat32) 0 f = some o.displayId :=
    h.given_field displayId (fun o => .nat o.displayId) (by simp [members])
      (nat?_nat hrange.displayId) rfl
  obtain ⟨f₂, hf₂, hsize⟩ : ∃ f, member? l "max_size" = some f ∧
      given (nat? Text.maxNat32) 0 f = some o.maxSize :=
    h.given_field maxSize (fun o => .nat o.maxSize) (by simp [members]) (nat?_nat hrange.maxSize) rfl
  obtain ⟨f₃, hf₃, hcrop⟩ : ∃ f, member? l "crop" = some f ∧
      given (Json.optional? Rect.ofJson?) none f = some o.crop :=
    h.given_crop (by simp [members, mem_cropMember]) (by simp [hnames]) hrange.crop
  obtain ⟨f₄, hf₄, hcrop2⟩ : ∃ f, member? l "crop_region2" = some f ∧
      given (Json.optional? Rect.ofJson?) none f = some o.crop2 :=
    h.given_crop (by simp [members, mem_cropMember]) (by simp [hnames]) hrange.crop2
  obtain ⟨f₅, hf₅, hlock⟩ : ∃ f, member? l "capture_orientation_lock" = some f ∧
      given (Json.named? OrientationLock.ofName?) .unlocked f = some o.lock :=
    h.given_field lock (fun o => .text o.lock.name) (by simp [members])
      (named?_text _ _ ▸ o.lock.ofName?_name) rfl
  obtain ⟨f₆, hf₆, horientation⟩ : ∃ f, member? l "capture_orientation" = some f ∧
      given (Json.named? Orientation.ofName?) .upright f = some o.orientation :=
    h.given_field orientation (fun o => .text o.orientation.name) (by simp [members])
      (named?_text _ _ ▸ o.orientation.ofName?_name) (Orientation.ofName?_name .upright)
  obtain ⟨f₇, hf₇, hturn⟩ : ∃ f, member? l "angle" = some f ∧
      given Json.double? 0 f = some o.angle :=
    h.given_field angle (fun o => .double o.angle) (by simp [members]) (faithful_iff.1 hangle)
      (by decide +kernel)
  have hfields : (Json.record l).fields? fieldNames = some [f₁, f₂, f₃, f₄, f₅, f₆, f₇] := by
    rw [fields?_record]
    simp [fieldNames, List.mapM_cons, hf₁, hf₂, hf₃, hf₄, hf₅, hf₆, hf₇]
  simp only [ofJson?, hfields, hdisplay, hsize, hcrop, hcrop2, hlock, horientation, hturn]
  rfl

theorem validate_of_ofSymbols {symbols : List Symbol} (h : ofSymbols symbols = .ok o) :
    o.validate = .ok () := by
  unfold ofSymbols at h
  split at h
  · cases h
  · obtain ⟨⟨⟩, hvalid, rfl⟩ := map_eq_ok.1 h
    exact hvalid

theorem ofText_of_read? {text : String} {v : Json} (hread : read? (symbolsOfText text) = some v)
    (hdecode : ofJson? v = some o) (hvalid : o.validate = .ok ()) : ofText text = .ok o := by
  simp only [ofText, ofSymbols, hread, Option.bind_some, hdecode, hvalid]
  rfl

/-- Options that are read make sense, and bytes are read as the text they are. Options that make sense
are read back from their document, from its members in any other order, and from those of its members
that are not as by default, on one line or over several. -/
theorem read_back :
    (∀ text o, ofText text = .ok o → o.validate = .ok ()) ∧
    (∀ bytes o, ofBytes bytes = .ok o → o.validate = .ok ()) ∧
    (∀ text : String, ofBytes text.toUTF8 = ofText text) ∧
    ∀ o : Options Float, o.Ranged → o.validate = .ok () → Faithful o.angle →
      ofText o.toText = .ok o ∧
      ∀ l, Abridges l o →
        ofText (Json.record l).pretty = .ok o ∧ ofText (Json.record l).compact = .ok o := by
  refine ⟨fun _ _ => validate_of_ofSymbols, fun _ _ => validate_of_ofSymbols, fun text => ?_, ?_⟩
  · rw [ofBytes, symbolsOfBytes_toUTF8, ofText]
  · intro o hrange hvalid hangle
    have hread (l : List (String × Json)) (h : Abridges l o) :
        ofText (Json.record l).pretty = .ok o ∧ ofText (Json.record l).compact = .ok o := by
      have hlegible : Legible (Json.record l) :=
        legible_record fun m hm => legible_members o m (h.kept.subset hm)
      have hdecode := h.ofJson?_record hrange hangle
      exact ⟨ofText_of_read? (read?_pretty hlegible) hdecode hvalid,
        ofText_of_read? (read?_compact hlegible) hdecode hvalid⟩
    exact ⟨(hread o.members (abridges_members o)).1, hread⟩

/-- A part of another display, flipped and turned for good, and tilted a little. -/
def otherDisplay : Options Float where
  displayId := 3
  maxSize := 0
  crop := some ⟨1, 2, 30, 40⟩
  crop2 := none
  lock := .value
  orientation := ⟨true, Fin.last 3⟩
  angle := -12.5

theorem read_back_otherDisplay :
    otherDisplay.validate = .ok () ∧
      ofText (Json.record (otherDisplay.members.eraseIdx 1).reverse).pretty = .ok otherDisplay ∧
      ofBytes (Json.record (otherDisplay.members.eraseIdx 1).reverse).pretty.toUTF8 =
        .ok otherDisplay := by
  obtain ⟨-, -, hbytes, hread⟩ := read_back
  have hvalid : otherDisplay.validate = .ok () := rfl
  have hrange : otherDisplay.Ranged := by
    refine ⟨by decide, by decide, ?_, nofun⟩
    rintro r ⟨⟩
    simp [Rect.Ranged, IsInt32]
    decide
  -- the cap is as by default
  have habridges : Abridges (otherDisplay.members.eraseIdx 1).reverse otherDisplay := by
    refine ⟨⟨_, (List.reverse_perm _).symm, List.eraseIdx_sublist _ _⟩, fun m hm hout => ?_⟩
    have hcap : m = ("max_size", .nat 0) := by
      simp only [otherDisplay, members, cropMember, List.cons_append, List.nil_append,
        List.mem_cons, List.not_mem_nil, or_false] at hm
      simp [otherDisplay, members, cropMember] at hout
      rcases hm with rfl | rfl | rfl | rfl | rfl | rfl <;> simp at hout ⊢
    rw [hcap]
    exact List.mem_cons_of_mem _ List.mem_cons_self
  have hfaithful : Faithful otherDisplay.angle := faithful_iff.2 (by decide +kernel)
  obtain ⟨-, hall⟩ := hread otherDisplay hrange hvalid hfaithful
  have htext := (hall _ habridges).1
  exact ⟨hvalid, htext, (hbytes _).trans htext⟩

end Options

end RegionCapture
