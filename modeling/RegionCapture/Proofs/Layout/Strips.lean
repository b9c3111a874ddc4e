import RegionCapture.Layout
/-!
# Strips

Every viewport of a layout is a strip on the bottom edge, and no two of them share a pixel
(`pairwise_apart_arrange`).
-/

namespace RegionCapture

namespace Viewport

/-- No pixel lies in both. -/
def Apart (v w : Viewport) : Prop := ∀ x y, v.contains x y = true → w.contains x y = false

/-- What ends where another begins, or before that, is apart from it. -/
theorem apart_of_le {v w : Viewport} (h : v.x + v.width ≤ w.x) : v.Apart w := by
  intro x y hv
  rw [Bool.eq_false_iff]
  intro hw
  rw [contains_iff] at hv hw
  omega

end Viewport

namespace Layout

variable {K : Type}

/-- What a region of a size covers from column `x` on; nothing if it is empty. -/
def strip (size : Size) (x : Nat) : List Viewport :=
  if size.isEmpty then [] else [⟨x, 0, size.width, size.height⟩]

theorem mem_placements {l : Layout K} {p : Placement K} :
    p ∈ l.placements ↔ l.region1 = some p ∨ l.region2 = some p := by
  simp [placements, eq_comm]

theorem filterMap_viewport (inverse : Affine K) (size : Size) (x : Nat) (l : List (Placement K)) :
    (⟨inverse, size, x, 0⟩ :: l).filterMap Placement.viewport =
      strip size x ++ l.filterMap Placement.viewport := by
  unfold strip
  by_cases h : size.isEmpty = true <;> simp [Placement.viewport, h]

theorem viewports_single (r : RegionInput K) (cap : Nat) :
    (single r cap).viewports =
      strip (if r.size.isEmpty then r.size else (r.size.limit cap).align) 0 :=
  (filterMap_viewport r.inverse _ 0 []).trans (List.append_nil _)

theorem viewports_pair (r1 r2 : RegionInput K) :
    (pair r1 r2).viewports = strip r1.size 0 ++ strip r2.size (reservedWidth r1.size) := by
  have h := filterMap_viewport r2.inverse r2.size (reservedWidth r1.size) []
  rw [List.filterMap_nil, List.append_nil] at h
  rw [← h]
  exact filterMap_viewport r1.inverse r1.size 0 _

theorem pairwise_strip (size : Size) (x : Nat) : (strip size x).Pairwise Viewport.Apart := by
  unfold strip
  split
  · exact .nil
  · exact List.pairwise_singleton _ _

theorem pairwise_apart_pair (r1 r2 : RegionInput K) :
    (pair r1 r2).viewports.Pairwise Viewport.Apart := by
  rw [viewports_pair, List.pairwise_append]
  refine ⟨pairwise_strip _ _, pairwise_strip _ _, ?_⟩
  -- the second strip begins where the first one ends
  intro v hv w hw
  refine Viewport.apart_of_le ?_
  unfold strip at hv hw
  split at hv
  · cases hv
  split at hw
  · cases hw
  next h1 h2 =>
    rw [List.mem_singleton] at hv hw
    simp [hv, hw, reservedWidth, h1]

/-- No two viewports of a layout share a pixel. -/
theorem pairwise_apart_arrange [Scalar K] (r1 r2 : Option (RegionInput K)) (cap : Nat) :
    (arrange r1 r2 cap).viewports.Pairwise Viewport.Apart := by
  rcases r1 with _ | r1 <;> rcases r2 with _ | r2
  · exact .nil
  · exact pairwise_apart_pair _ _
  · unfold arrange
    rw [viewports_single]
    exact pairwise_strip _ _
  · exact pairwise_apart_pair _ _

end Layout

end RegionCapture
