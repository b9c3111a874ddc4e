import RegionCapture.Affine
/-!
# Layouts

Where regions stand in the combined output. A viewport is given in window coordinates: `(x, y)` is
its bottom left corner. One region fills the output; two stand side by side on the bottom edge.
-/

namespace RegionCapture

/-- A rectangle of the combined output. -/
structure Viewport where
  x : Nat
  y : Nat
  width : Nat
  height : Nat
  deriving DecidableEq, Repr

namespace Viewport

/-- Width and height. -/
def size (v : Viewport) : Size := ⟨v.width, v.height⟩

/-- Column `x` and row `y`, counted from the bottom, lie inside. -/
def contains (v : Viewport) (x y : Nat) : Bool :=
  v.x ≤ x && x < v.x + v.width && v.y ≤ y && y < v.y + v.height

theorem contains_iff {v : Viewport} {x y : Nat} :
    v.contains x y = true ↔ v.x ≤ x ∧ x < v.x + v.width ∧ v.y ≤ y ∧ y < v.y + v.height := by
  simp [contains, and_assoc]

end Viewport

/-- A region to be placed: its size, and the transform from it back to the source. -/
structure RegionInput (K : Type) where
  size : Size
  inverse : Affine K
  deriving DecidableEq, Repr

/-- A region with its place in the combined output. -/
structure Placement (K : Type) where
  inverse : Affine K
  size : Size
  x : Nat
  y : Nat
  deriving DecidableEq, Repr

/-- What the region covers; nothing if it is empty. -/
def Placement.viewport {K : Type} (p : Placement K) : Option Viewport :=
  if p.size.isEmpty then none else some ⟨p.x, p.y, p.size.width, p.size.height⟩

/-- The combined output and the two places in it. -/
structure Layout (K : Type) where
  combined : Size
  region1 : Option (Placement K)
  region2 : Option (Placement K)
  deriving DecidableEq, Repr

/-- How many regions a layout has room for. -/
def maxRegions : Nat := 2

namespace Layout

variable {K : Type}

/-- The places that are taken, in drawing order. -/
def placements (l : Layout K) : List (Placement K) := [l.region1, l.region2].filterMap id

/-- What is drawn on, in drawing order; empty regions are left out. -/
def viewports (l : Layout K) : List Viewport := l.placements.filterMap Placement.viewport

/-- One region by itself: limited to `cap` on its longer side and stretched to whole multiples
of 8. An empty region keeps its size. -/
def single (r : RegionInput K) (cap : Nat) : Layout K :=
  let combined := (r.size.limit cap).align
  { combined := combined
    region1 := some ⟨r.inverse, if r.size.isEmpty then r.size else combined, 0, 0⟩
    region2 := none }

/-- How wide a strip the region takes: none if it is empty. -/
def reservedWidth (s : Size) : Nat := if s.isEmpty then 0 else s.width

/-- How high a strip the region takes: none if it is empty. -/
def reservedHeight (s : Size) : Nat := if s.isEmpty then 0 else s.height

/-- Two regions side by side, each in its own size. -/
def pair (r1 r2 : RegionInput K) : Layout K where
  combined := Size.align
    ⟨reservedWidth r1.size + reservedWidth r2.size,
      max (reservedHeight r1.size) (reservedHeight r2.size)⟩
  region1 := some ⟨r1.inverse, r1.size, 0, 0⟩
  region2 := some ⟨r2.inverse, r2.size, reservedWidth r1.size, 0⟩

/-- The layout of up to two regions. The cap counts for a single region only; a second region
without a first leaves the first place empty. -/
def arrange [Scalar K] (r1 r2 : Option (RegionInput K)) (cap : Nat) : Layout K :=
  match r1, r2 with
  | none, none => ⟨Size.zero, none, none⟩
  | some r1, none => single r1 cap
  | none, some r2 => pair ⟨Size.zero, Affine.identity⟩ r2
  | some r1, some r2 => pair r1 r2

end Layout

end RegionCapture
