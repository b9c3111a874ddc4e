import RegionCapture.Proofs.Document.Options
import RegionCapture.Proofs.Text.Numerals
import RegionCapture.Proofs.Text.Pieces
import RegionCapture.Rect.Crop
/-!
# Crops read back

Exactly the texts that describe a crop are read (`Rect.crop_form`), as the rectangle they describe: four
parts between colons, each a number of 32 bits with or without white space around it, no negative extent,
no far edge out of range. A rectangle with its edges in order is read back from its own text.
-/

namespace RegionCapture.Rect

open Text Json

/-- The part is a numeral of a number of 32 bits, with white space around it or not. -/
def IsPart (part : List Char) (n : Int) : Prop :=
  IsInt32 n ∧ ∃ lead numeral trail, part = lead ++ numeral ++ trail ∧ AllBlank lead ∧ AllBlank trail ∧
    Spells numeral n

/-- The text gives these four values of a crop, and they make sense together. -/
structure Describes (text : String) (width height left top : Int) : Prop where
  parts : ∃ w h x y, text.toList.splitOn ':' = [w, h, x, y] ∧
    IsPart w width ∧ IsPart h height ∧ IsPart x left ∧ IsPart y top
  extent : 0 ≤ width ∧ 0 ≤ height
  range : IsInt32 (left + width) ∧ IsInt32 (top + height)

/-! ## Reading -/

theorem cropValue_eq_ok_iff {text : String} {part : List Char} {n : Int} :
    cropValue text part = .ok n ↔ IsPart part n := by
  have hvalue : cropValue text part = .ok n ↔ readInt32 (trim part) = .ok n := by
    unfold cropValue
    cases readInt32 (trim part) <;> simp
  rw [hvalue, readInt32_eq_ok_iff]
  constructor
  · rintro ⟨hspells, hrange⟩
    obtain ⟨lead, trail, hpart, hlead, htrail, -⟩ := exists_trim part
    exact ⟨hrange, lead, trim part, trail, hpart, hlead, htrail, hspells⟩
  · rintro ⟨hrange, lead, numeral, trail, hpart, hlead, htrail, hspells⟩
    have hsnug : Snug numeral := ⟨fun c hc => hspells.not_isBlank (List.mem_of_mem_head? hc),
      fun c hc => hspells.not_isBlank (List.mem_of_getLast? hc)⟩
    rw [trim_eq_iff.2 ⟨lead, trail, hpart, hlead, htrail, hsnug⟩]
    exact ⟨hspells, hrange⟩

theorem inRange_iff {n : Int} : inRange n = true ↔ IsInt32 n := by
  have hmax : (maxInt32 : Int) = 0x7fffffff := rfl
  simp only [inRange, IsInt32, Bool.and_eq_true, decide_eq_true_eq, hmax]
  omega

theorem checked_eq_ok_iff {text : String} {width height left top : Int} {r : Rect} :
    (if width < 0 || height < 0 then throw (.cropNegative text)
      else if !inRange (left + width) || !inRange (top + height) then throw (.cropRange text)
      else pure ⟨left, top, left + width, top + height⟩ : Except Fault Rect) = .ok r ↔
      (0 ≤ width ∧ 0 ≤ height) ∧ (IsInt32 (left + width) ∧ IsInt32 (top + height)) ∧
        r = ⟨left, top, left + width, top + height⟩ := by
  simp only [← inRange_iff]
  split
  · next hneg =>
    simp only [Bool.or_eq_true, decide_eq_true_eq] at hneg
    refine ⟨nofun, fun ⟨hpos, _⟩ => ?_⟩
    omega
  · next hpos =>
    simp only [Bool.or_eq_true, decide_eq_true_eq, not_or, Int.not_lt] at hpos
    split
    · next hout =>
      refine ⟨nofun, fun ⟨_, ⟨hright, hbottom⟩, _⟩ => ?_⟩
      simp [hright, hbottom] at hout
    · next hin =>
      simp only [Bool.or_eq_true, Bool.not_eq_true', not_or, Bool.not_eq_false] at hin
      exact ⟨fun h => ⟨hpos, hin, (Except.ok.inj h).symm⟩, fun ⟨_, _, h⟩ => congrArg _ h.symm⟩

theorem ofCrop_eq_ok_iff {text : String} {r : Rect} : ofCrop text = .ok r ↔
    ∃ width height left top, Describes text width height left top ∧
      r = ⟨left, top, left + width, top + height⟩ := by
  unfold ofCrop
  rw [split_eq_splitOn]
  split
  · next w h x y hparts =>
    simp only [bind_eq_ok, cropValue_eq_ok_iff, checked_eq_ok_iff]
    constructor
    · rintro ⟨width, hw, height, hh, left, hx, top, hy, hextent, hrange, rfl⟩
      exact ⟨width, height, left, top, ⟨⟨w, h, x, y, hparts, hw, hh, hx, hy⟩, hextent, hrange⟩, rfl⟩
    · rintro ⟨width, height, left, top, ⟨⟨_, _, _, _, hsame, hw, hh, hx, hy⟩, hextent, hrange⟩, rfl⟩
      cases hparts.symm.trans hsame
      exact ⟨width, hw, height, hh, left, hx, top, hy, hextent, hrange, rfl⟩
  · next hother =>
    refine ⟨nofun, ?_⟩
    rintro ⟨_, _, _, _, ⟨⟨w, h, x, y, hparts, -⟩, -, -⟩, -⟩
    exact absurd hparts (hother w h x y)

/-! ## Writing -/

theorem isPart_toString {n : Int} (h : IsInt32 n) : IsPart (toString n).toList n :=
  ⟨h, [], _, [], by simp, nofun, nofun, spells_toString n⟩

theorem splitOn_text (r : Rect) : r.text.toList.splitOn ':' =
    [(toString r.width).toList, (toString r.height).toList, (toString r.left).toList,
      (toString r.top).toList] := by
  -- numerals have no colons
  have hcolon (n : Int) : ':' ∉ (toString n).toList := by
    intro hc
    rcases (spells_toString n).mem hc with h | h | h <;> exact absurd h (by decide)
  have hjoined : r.text.toList = [':'].intercalate [(toString r.width).toList,
      (toString r.height).toList, (toString r.left).toList, (toString r.top).toList] := by
    simp [text, List.intercalate]
  rw [hjoined]
  refine List.splitOn_intercalate ':' ?_ (List.cons_ne_nil _ _)
  simp only [List.forall_mem_cons]
  exact ⟨hcolon _, hcolon _, hcolon _, hcolon _, nofun⟩

theorem describes_text {r : Rect} (h : r.Ranged) (hx : r.left ≤ r.right) (hy : r.top ≤ r.bottom)
    (hw : IsInt32 (r.right - r.left)) (hh : IsInt32 (r.bottom - r.top)) :
    Describes r.text (r.right - r.left) (r.bottom - r.top) r.left r.top := by
  obtain ⟨hleft, htop, hright, hbottom⟩ := h
  have hparts := splitOn_text r
  rw [width, height, signed32_eq (inRange_iff.2 hw), signed32_eq (inRange_iff.2 hh)] at hparts
  refine ⟨⟨_, _, _, _, hparts, isPart_toString hw, isPart_toString hh, isPart_toString hleft,
    isPart_toString htop⟩, ⟨by omega, by omega⟩, ?_⟩
  rw [Int.add_comm, Int.sub_add_cancel, Int.add_comm, Int.sub_add_cancel]
  exact ⟨hright, hbottom⟩

/-! ## The form of crops -/

/-- A text is read exactly if it describes a crop: it is then the rectangle with that origin and that
extent, all of it in range. A rectangle of 32-bit numbers whose edges are in order is read back from its
own text, if its extent is in range too. -/
theorem crop_form :
    (∀ text, (∃ r, ofCrop text = .ok r) ↔
      ∃ width height left top, Describes text width height left top) ∧
    (∀ text width height left top, Describes text width height left top →
      ∃ r, ofCrop text = .ok r ∧ r = ⟨left, top, left + width, top + height⟩ ∧
        r.width = width ∧ r.height = height ∧ r.Ranged ∧
          IsInt32 (r.right - r.left) ∧ IsInt32 (r.bottom - r.top)) ∧
    ∀ r : Rect, r.Ranged → r.left ≤ r.right → r.top ≤ r.bottom → IsInt32 (r.right - r.left) →
      IsInt32 (r.bottom - r.top) → ofCrop r.text = .ok r := by
  refine ⟨fun text => ?_, fun text width height left top h => ?_, fun r hr hx hy hw hh => ?_⟩
  · constructor
    · rintro ⟨r, hr⟩
      obtain ⟨width, height, left, top, h, -⟩ := ofCrop_eq_ok_iff.1 hr
      exact ⟨width, height, left, top, h⟩
    · rintro ⟨width, height, left, top, h⟩
      exact ⟨_, ofCrop_eq_ok_iff.2 ⟨width, height, left, top, h, rfl⟩⟩
  · obtain ⟨_, _, _, _, -, ⟨hwidth, -⟩, ⟨hheight, -⟩, ⟨hleft, -⟩, htop, -⟩ := h.parts
    refine ⟨_, ofCrop_eq_ok_iff.2 ⟨width, height, left, top, h, rfl⟩, rfl, ?_⟩
    have hextent (origin extent : Int) : origin + extent - origin = extent := by omega
    simp only [Rect.width, Rect.height, hextent]
    exact ⟨signed32_eq (inRange_iff.2 hwidth), signed32_eq (inRange_iff.2 hheight),
      ⟨hleft, htop, h.range⟩, hwidth, hheight⟩
  · refine ofCrop_eq_ok_iff.2 ⟨_, _, _, _, describes_text hr hx hy hw hh, ?_⟩
    rw [Int.add_comm, Int.sub_add_cancel, Int.add_comm, Int.sub_add_cancel]

/-- White space of another sort, signs and zeros in front, and an edge that is the last there is. -/
theorem crop_form_corner :
    Describes "\u3000+4: 03:-2 :2147483644" 4 3 (-2) 2147483644 ∧
      ofCrop "\u3000+4: 03:-2 :2147483644" = .ok ⟨-2, 2147483644, 2, 2147483647⟩ ∧
      Ranged ⟨-2, 2147483644, 2, 2147483647⟩ ∧
      ofCrop (text ⟨-2, 2147483644, 2, 2147483647⟩) = .ok ⟨-2, 2147483644, 2, 2147483647⟩ := by
  obtain ⟨-, hread, hback⟩ := crop_form
  have hdescribes : Describes "\u3000+4: 03:-2 :2147483644" 4 3 (-2) 2147483644 := by
    refine ⟨⟨"\u3000+4".toList, " 03".toList, "-2 ".toList, "2147483644".toList, by decide +kernel, ?_,
      ?_, ?_, ?_⟩, by decide, by decide⟩
    · exact ⟨by decide, ['\u3000'], ['+', '4'], [], by decide, by decide, nofun, .plus (by decide)⟩
    · exact ⟨by decide, [' '], ['0', '3'], [], by decide, by decide, nofun, .bare (by decide)⟩
    · exact ⟨by decide, [], ['-', '2'], [' '], by decide, nofun, by decide, .minus (by decide)⟩
    · exact ⟨by decide, [], "2147483644".toList, [], by simp, nofun, nofun, .bare (by decide)⟩
  obtain ⟨r, hr, rfl, -, -, hranged, hw, hh⟩ := hread _ _ _ _ _ hdescribes
  exact ⟨hdescribes, hr, hranged, hback _ hranged (by decide) (by decide) hw hh⟩

end RegionCapture.Rect
