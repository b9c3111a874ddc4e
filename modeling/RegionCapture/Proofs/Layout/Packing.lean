import Mathlib.Data.List.Chain
import RegionCapture.Proofs.Layout.Strips
/-!
# How tightly a layout is packed

The viewports of a layout stand in a row on the bottom edge, each where the one before it ends, and
the combined output is the smallest one in whole multiples of 8 that holds them (`packed_arrange`).
What carries this is the row of any list of sizes and its extent, by induction on the list.
-/

namespace RegionCapture

/-! ## Multiples of 8 -/

theorem eight_dvd_roundUp8 (n : Nat) : 8 ∣ roundUp8 n := by
  unfold roundUp8; omega

theorem roundUp8_le {n m : Nat} (h : n ≤ m) (hm : 8 ∣ m) : roundUp8 n ≤ m := by
  unfold roundUp8; omega

@[simp] theorem roundUp8_roundUp8 (n : Nat) : roundUp8 (roundUp8 n) = roundUp8 n := by
  unfold roundUp8; omega

namespace Size

@[simp] theorem align_align (s : Size) : s.align.align = s.align := by
  simp [align]

/-- A size without pixels has none under a cap either. -/
theorem isEmpty_limit {s : Size} (h : s.isEmpty = true) (cap : Nat) :
    (s.limit cap).isEmpty = true := by
  simp only [isEmpty, Bool.or_eq_true, beq_iff_eq] at h ⊢
  unfold limit
  split
  · exact h
  split
  · -- the height is the longer side, so it is the width that is zero
    split
    · exact h
    · left
      rw [h.resolve_right (by omega), Nat.mul_zero, Nat.zero_div]
  · split
    · exact h
    · right
      have hh : s.height = 0 := by omega
      rw [hh, Nat.mul_zero, Nat.zero_div]

end Size

namespace Layout

variable {K : Type}

/-! ## Rows -/

/-- What regions of the given sizes cover one after the other, from column `x` on. -/
def row (x : Nat) : List Size → List Viewport
  | [] => []
  | s :: rest => strip s x ++ row (x + reservedWidth s) rest

/-- How much room a row takes. -/
def extent : List Size → Size
  | [] => Size.zero
  | s :: rest => ⟨reservedWidth s + (extent rest).width, max (reservedHeight s) (extent rest).height⟩

theorem row_cons_of_empty {s : Size} (h : s.isEmpty = true) (x : Nat) (l : List Size) :
    row x (s :: l) = row x l ∧ extent (s :: l) = extent l := by
  simp [row, extent, strip, reservedWidth, reservedHeight, h]

theorem row_cons {s : Size} (h : s.isEmpty = false) (x : Nat) (l : List Size) :
    row x (s :: l) = ⟨x, 0, s.width, s.height⟩ :: row (x + s.width) l ∧
      extent (s :: l) = ⟨s.width + (extent l).width, max s.height (extent l).height⟩ := by
  simp [row, extent, strip, reservedWidth, reservedHeight, h]

theorem extent_singleton {s : Size} (h : s.isEmpty = false) : extent [s] = s := by
  rw [(row_cons h 0 []).2]
  simp [extent, Size.zero]

/-- A row begins where it is meant to. -/
theorem x_of_mem_head?_row {x : Nat} {l : List Size} {v : Viewport} (h : v ∈ (row x l).head?) :
    v.x = x := by
  induction l with
  | nil => cases h
  | cons s l ih =>
    cases hs : s.isEmpty with
    | true =>
      rw [(row_cons_of_empty hs x l).1] at h
      exact ih h
    | false =>
      rw [(row_cons hs x l).1] at h
      cases h
      rfl

/-- In a row each viewport begins where the one before it ends. -/
theorem isChain_row (x : Nat) (l : List Size) :
    (row x l).IsChain fun v w => w.x = v.x + v.width := by
  induction l generalizing x with
  | nil => exact .nil
  | cons s l ih =>
    cases hs : s.isEmpty with
    | true =>
      rw [(row_cons_of_empty hs x l).1]
      exact ih x
    | false =>
      rw [(row_cons hs x l).1, List.isChain_cons]
      exact ⟨fun w hw => x_of_mem_head?_row hw, ih _⟩

/-- What stands in a row has pixels, stands on the bottom edge, and ends within the extent. -/
theorem of_mem_row {x : Nat} {l : List Size} {v : Viewport} (h : v ∈ row x l) :
    v.y = 0 ∧ 0 < v.width ∧ 0 < v.height ∧ v.x + v.width ≤ x + (extent l).width ∧
      v.height ≤ (extent l).height := by
  induction l generalizing x with
  | nil => cases h
  | cons s l ih =>
    cases hs : s.isEmpty with
    | true =>
      obtain ⟨hr, he⟩ := row_cons_of_empty hs x l
      rw [hr] at h
      rw [he]
      exact ih h
    | false =>
      obtain ⟨hr, he⟩ := row_cons hs x l
      rw [hr] at h
      rw [he]
      obtain ⟨hw, hh⟩ := Size.isEmpty_eq_false_iff.1 hs
      rcases List.mem_cons.1 h with rfl | h
      · exact ⟨rfl, hw, hh, by simp only; omega, Nat.le_max_left _ _⟩
      · obtain ⟨hy, h1, h2, h3, h4⟩ := ih h
        exact ⟨hy, h1, h2, by simp only at h3 ⊢; omega, h4.trans (Nat.le_max_right _ _)⟩

/-- Whatever holds every viewport of a row holds its extent. -/
theorem extent_le {x : Nat} {l : List Size} {s : Size} (hx : x ≤ s.width)
    (h : ∀ v ∈ row x l, v.x + v.width ≤ s.width ∧ v.height ≤ s.height) :
    x + (extent l).width ≤ s.width ∧ (extent l).height ≤ s.height := by
  induction l generalizing x with
  | nil => exact ⟨hx, Nat.zero_le _⟩
  | cons t l ih =>
    cases ht : t.isEmpty with
    | true =>
      obtain ⟨hr, he⟩ := row_cons_of_empty ht x l
      rw [hr] at h
      rw [he]
      exact ih hx h
    | false =>
      obtain ⟨hr, he⟩ := row_cons ht x l
      rw [hr, List.forall_mem_cons] at h
      rw [he]
      obtain ⟨hw, hh⟩ := ih h.1.1 h.2
      exact ⟨by simp only at hw ⊢; omega, Nat.max_le.2 ⟨h.1.2, hh⟩⟩

/-- A row has an extent exactly if something stands in it. -/
theorem isEmpty_extent_iff (x : Nat) (l : List Size) :
    (extent l).isEmpty = true ↔ row x l = [] := by
  induction l generalizing x with
  | nil => exact ⟨fun _ => rfl, fun _ => rfl⟩
  | cons s l ih =>
    cases hs : s.isEmpty with
    | true =>
      obtain ⟨hr, he⟩ := row_cons_of_empty hs x l
      rw [hr, he]
      exact ih x
    | false =>
      obtain ⟨hr, he⟩ := row_cons hs x l
      obtain ⟨hw, hh⟩ := Size.isEmpty_eq_false_iff.1 hs
      have hne : (extent (s :: l)).isEmpty = false := by
        rw [he, Size.isEmpty_eq_false_iff]
        simp only
        omega
      rw [hr, hne]
      simp

/-! ## Packed layouts -/

/-- The layout is packed: its viewports stand in a row, and the output is as small as it can be in
whole multiples of 8. -/
structure Packed (l : Layout K) : Prop where
  apart : l.viewports.Pairwise Viewport.Apart
  inside : ∀ v ∈ l.viewports,
    v.x + v.width ≤ l.combined.width ∧ v.y + v.height ≤ l.combined.height
  aligned : 8 ∣ l.combined.width ∧ 8 ∣ l.combined.height
  isEmpty_iff : l.combined.isEmpty = true ↔ l.viewports = []
  /-- No smaller output holds every pixel of the viewports. -/
  least : l.viewports ≠ [] → ∀ s : Size, 8 ∣ s.width → 8 ∣ s.height →
    (∀ v ∈ l.viewports, ∀ x y, v.contains x y = true → x < s.width ∧ y < s.height) →
    l.combined.width ≤ s.width ∧ l.combined.height ≤ s.height
  bottom : ∀ v ∈ l.viewports, v.y = 0
  first : ∀ v ∈ l.viewports.head?, v.x = 0
  next : l.viewports.IsChain fun v w => w.x = v.x + v.width

theorem eight_dvd_align (s : Size) : 8 ∣ s.align.width ∧ 8 ∣ s.align.height :=
  ⟨eight_dvd_roundUp8 _, eight_dvd_roundUp8 _⟩

/-- A row in an output that is its extent in whole multiples of 8 is packed. An output without pixels
may have any sides. -/
theorem packed_of_row {l : Layout K} {sizes : List Size} (hv : l.viewports = row 0 sizes)
    (ha : l.viewports.Pairwise Viewport.Apart) (h8 : l.combined.align = l.combined)
    (he : l.combined.isEmpty = (extent sizes).isEmpty)
    (hc : (extent sizes).isEmpty = false → l.combined = (extent sizes).align) : l.Packed := by
  have hfull : ∀ {v}, v ∈ row 0 sizes → l.combined = (extent sizes).align := by
    intro v hm
    refine hc ?_
    rw [Bool.eq_false_iff, Ne, isEmpty_extent_iff 0]
    exact List.ne_nil_of_mem hm
  refine ⟨ha, ?_, h8 ▸ eight_dvd_align _, ?_, ?_, ?_, ?_, ?_⟩
  · rw [hv]
    intro v hm
    obtain ⟨hy, -, -, hw, hh⟩ := of_mem_row hm
    have hw8 := le_roundUp8 (extent sizes).width
    have hh8 := le_roundUp8 (extent sizes).height
    rw [hfull hm]
    simp only [Size.align]
    omega
  · rw [hv, he]
    exact isEmpty_extent_iff 0 sizes
  · intro hn s hsw hsh hs
    rw [hv] at hn hs
    obtain ⟨v, hm⟩ := List.exists_mem_of_ne_nil _ hn
    -- the last pixel of a viewport in either direction lies inside
    have hext := extent_le (Nat.zero_le s.width) (l := sizes) fun v hm => by
      obtain ⟨hy, hw, hh, -, -⟩ := of_mem_row hm
      have hin := hs v hm (v.x + v.width - 1) (v.height - 1) (by rw [Viewport.contains_iff]; omega)
      omega
    rw [Nat.zero_add] at hext
    rw [hfull hm]
    exact ⟨roundUp8_le hext.1 hsw, roundUp8_le hext.2 hsh⟩
  · rw [hv]
    exact fun v hm => (of_mem_row hm).1
  · rw [hv]
    exact fun v hm => x_of_mem_head?_row hm
  · rw [hv]
    exact isChain_row 0 sizes

/-- A single region covers the whole output. -/
theorem viewports_single_eq (r : RegionInput K) (cap : Nat) :
    (single r cap).viewports = strip (r.size.limit cap).align 0 := by
  rw [viewports_single]
  split
  · next h => simp [strip, h, Size.isEmpty_limit h cap]
  · rfl

theorem packed_single (r : RegionInput K) (cap : Nat) : (single r cap).Packed := by
  have hv : (single r cap).viewports = row 0 [(r.size.limit cap).align] := by
    rw [viewports_single_eq]
    simp [row]
  refine packed_of_row hv ?_ (Size.align_align _) ?_ ?_
  · rw [viewports_single]
    exact pairwise_strip _ _
  · cases h : (r.size.limit cap).align.isEmpty with
    | true =>
      rw [(row_cons_of_empty h 0 []).2]
      exact h
    | false => rw [extent_singleton h]; rfl
  · intro hn
    cases h : (r.size.limit cap).align.isEmpty with
    | true =>
      rw [(row_cons_of_empty h 0 []).2] at hn
      cases hn
    | false =>
      rw [extent_singleton h, Size.align_align]
      rfl

theorem packed_pair (r1 r2 : RegionInput K) : (pair r1 r2).Packed := by
  have hv : (pair r1 r2).viewports = row 0 [r1.size, r2.size] := by
    rw [viewports_pair]
    simp [row]
  have hc : (pair r1 r2).combined = (extent [r1.size, r2.size]).align := by
    simp [pair, extent, Size.zero]
  refine packed_of_row hv (pairwise_apart_pair r1 r2) ?_ ?_ fun _ => hc
  · rw [hc, Size.align_align]
  · rw [hc, Size.isEmpty_align]

/-- Whatever regions are arranged, their layout is packed. -/
theorem packed_of_arrange [Scalar K] (r1 r2 : Option (RegionInput K)) (cap : Nat) :
    (arrange r1 r2 cap).Packed := by
  rcases r1 with _ | r1 <;> rcases r2 with _ | r2
  · have hv : (arrange none none cap : Layout K).viewports = row 0 [] := rfl
    have h8 : Size.zero.align = Size.zero := by decide
    exact packed_of_row hv .nil h8 rfl nofun
  · exact packed_pair _ _
  · exact packed_single _ _
  · exact packed_pair _ _

/-- Whatever regions are arranged, under whatever cap: the layout is packed, every region keeps its
own transform, and next to another one it keeps its own size. -/
theorem packed_arrange [Scalar K] (r1 r2 : Option (RegionInput K)) (cap : Nat) :
    let l := arrange r1 r2 cap
    l.Packed ∧
      (∀ r, r1 = some r → ∃ p, l.region1 = some p ∧ p.inverse = r.inverse ∧
        (r2.isSome = true → p.size = r.size)) ∧
      (∀ r, r2 = some r → ∃ p, l.region2 = some p ∧ p.inverse = r.inverse ∧ p.size = r.size) := by
  refine ⟨packed_of_arrange r1 r2 cap, ?_, ?_⟩
  · rintro r rfl
    cases r2 with
    | none => exact ⟨_, rfl, rfl, nofun⟩
    | some r2 => exact ⟨_, rfl, rfl, fun _ => rfl⟩
  · rintro r rfl
    cases r1 <;> exact ⟨_, rfl, rfl, rfl⟩

end Layout

end RegionCapture
