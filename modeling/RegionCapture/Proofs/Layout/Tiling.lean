import RegionCapture.Proofs.Layout.Packing
/-!
# Rows without gaps

A row covers every column up to its extent exactly once, and is as high as the highest region in it. If
the sizes are whole multiples of 8, so is the extent, and an output that is just large enough for the row
has no padding (`tiled_pair`).
-/

namespace RegionCapture

theorem roundUp8_eq_self {n : Nat} (h : 8 ∣ n) : roundUp8 n = n := by
  unfold roundUp8; omega

namespace Layout

variable {K : Type}

/-- The viewports stand side by side, leave no column of the output free, and the highest of them is as
high as the output; without any there is no output. -/
structure Tiled (l : Layout K) : Prop where
  apart : l.viewports.Pairwise Viewport.Apart
  inside : ∀ v ∈ l.viewports, v.x + v.width ≤ l.combined.width
  columns : ∀ x < l.combined.width, ∃! v, v ∈ l.viewports ∧ v.x ≤ x ∧ x < v.x + v.width
  width : l.combined.width = (l.viewports.map Viewport.width).foldr (· + ·) 0
  height : l.combined.height = (l.viewports.map Viewport.height).foldr max 0

theorem le_of_mem_row {x : Nat} {l : List Size} {v : Viewport} (h : v ∈ row x l) : x ≤ v.x := by
  induction l generalizing x with
  | nil => cases h
  | cons s l ih =>
    cases hs : s.isEmpty with
    | true =>
      rw [(row_cons_of_empty hs x l).1] at h
      exact ih h
    | false =>
      rw [(row_cons hs x l).1] at h
      rcases List.mem_cons.1 h with rfl | h
      · exact Nat.le_refl _
      · exact (Nat.le_add_right x s.width).trans (ih h)

/-- Every column within the extent of a row belongs to exactly one viewport. -/
theorem existsUnique_column {x c : Nat} {l : List Size} (hx : x ≤ c)
    (hc : c < x + (extent l).width) : ∃! v, v ∈ row x l ∧ v.x ≤ c ∧ c < v.x + v.width := by
  induction l generalizing x with
  | nil =>
    simp only [extent, Size.zero] at hc
    omega
  | cons s l ih =>
    cases hs : s.isEmpty with
    | true =>
      obtain ⟨hr, he⟩ := row_cons_of_empty hs x l
      rw [he] at hc
      rw [hr]
      exact ih hx hc
    | false =>
      obtain ⟨hr, he⟩ := row_cons hs x l
      rw [he] at hc
      simp only at hc
      rw [hr]
      by_cases hin : c < x + s.width
      · -- the rest of the row begins further on
        refine ⟨⟨x, 0, s.width, s.height⟩, ⟨List.mem_cons_self, hx, hin⟩, ?_⟩
        rintro v ⟨hv, hvx, -⟩
        rcases List.mem_cons.1 hv with rfl | hv
        · rfl
        · have hle := le_of_mem_row hv
          omega
      · obtain ⟨v, ⟨hv, hvc⟩, hunique⟩ := ih (x := x + s.width) (by omega) (by omega)
        refine ⟨v, ⟨List.mem_cons_of_mem _ hv, hvc⟩, ?_⟩
        rintro w ⟨hw, hwx, hwc⟩
        rcases List.mem_cons.1 hw with rfl | hw
        · exact absurd hwc hin
        · exact hunique w ⟨hw, hwx, hwc⟩

/-- Side by side, the viewports of a row are as wide as its extent, and the highest of them as high. -/
theorem extent_eq (x : Nat) (l : List Size) :
    (extent l).width = ((row x l).map Viewport.width).foldr (· + ·) 0 ∧
      (extent l).height = ((row x l).map Viewport.height).foldr max 0 := by
  induction l generalizing x with
  | nil => exact ⟨rfl, rfl⟩
  | cons s l ih =>
    cases hs : s.isEmpty with
    | true =>
      obtain ⟨hr, he⟩ := row_cons_of_empty hs x l
      rw [hr, he]
      exact ih x
    | false =>
      obtain ⟨hr, he⟩ := row_cons hs x l
      obtain ⟨hw, hh⟩ := ih (x + s.width)
      rw [hr, he, List.map_cons, List.map_cons, List.foldr_cons, List.foldr_cons, ← hw, ← hh]
      exact ⟨rfl, rfl⟩

/-- The extent of a row of sizes in whole multiples of 8 is one itself. -/
theorem align_extent {l : List Size} (h : ∀ s ∈ l, s.align = s) : (extent l).align = extent l := by
  have hall : 8 ∣ (extent l).width ∧ 8 ∣ (extent l).height := by
    induction l with
    | nil => exact ⟨⟨0, rfl⟩, ⟨0, rfl⟩⟩
    | cons s l ih =>
      rw [List.forall_mem_cons] at h
      cases hs : s.isEmpty with
      | true =>
        rw [(row_cons_of_empty hs 0 l).2]
        exact ih h.2
      | false =>
        obtain ⟨hw, hh⟩ := h.1 ▸ eight_dvd_align s
        obtain ⟨hw', hh'⟩ := ih h.2
        rw [(row_cons hs 0 l).2]
        refine ⟨Nat.dvd_add hw hw', ?_⟩
        rcases Nat.le_total s.height (extent l).height with hle | hle
        · simpa only [Nat.max_eq_right hle] using hh'
        · simpa only [Nat.max_eq_left hle] using hh
  rw [Size.align, roundUp8_eq_self hall.1, roundUp8_eq_self hall.2]

theorem tiled_pair {r1 r2 : RegionInput K} (h1 : r1.size.align = r1.size)
    (h2 : r2.size.align = r2.size) : (pair r1 r2).Tiled := by
  have hv : (pair r1 r2).viewports = row 0 [r1.size, r2.size] := by
    rw [viewports_pair]
    simp [row]
  have hc : (pair r1 r2).combined = extent [r1.size, r2.size] := by
    rw [← align_extent (by simp [h1, h2])]
    simp [pair, extent, Size.zero]
  obtain ⟨hw, hh⟩ := extent_eq 0 [r1.size, r2.size]
  refine ⟨pairwise_apart_pair r1 r2, fun v hm => ((packed_pair r1 r2).inside v hm).1, fun x hx => ?_,
    ?_, ?_⟩
  · rw [hc] at hx
    rw [hv]
    exact existsUnique_column (Nat.zero_le x) (by omega)
  · rw [hc, hv, hw]
  · rw [hc, hv, hh]

end Layout

end RegionCapture
