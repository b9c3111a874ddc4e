import Mathlib.Logic.Function.Iterate
import RegionCapture.Frame
import RegionCapture.Layout
import RegionCapture.Orientation
/-!
# Views of a picture

A picture cut, mirrored, turned, shown in an orientation, or read through a viewport. All of them pick
their pixels from the picture (`Frame.pick`), so one lemma says what they show.
-/

namespace RegionCapture

/-! ## Rectangles of pixels -/

namespace Rect

/-- The pixel in column `x` and row `y` lies in the rectangle. -/
def Has (r : Rect) (x y : Nat) : Prop := r.left ≤ x ∧ x < r.right ∧ r.top ≤ y ∧ y < r.bottom

/-- The rectangle lies in a picture of the given size. -/
def Fits (r : Rect) (s : Size) : Prop :=
  0 ≤ r.left ∧ r.right ≤ s.width ∧ 0 ≤ r.top ∧ r.bottom ≤ s.height

/-- The edges are in order. -/
def Ordered (r : Rect) : Prop := r.left ≤ r.right ∧ r.top ≤ r.bottom

/-- Width and height are in range, so they are the distances between the edges. -/
def Exact (r : Rect) : Prop :=
  inRange (r.right - r.left) = true ∧ inRange (r.bottom - r.top) = true

/-- The one pixel in column `x` and row `y`. -/
def cell (x y : Nat) : Rect := ⟨x, y, x + 1, y + 1⟩

/-- How many columns and rows of pixels lie in the rectangle. -/
def extent (r : Rect) : Size := ⟨(r.right - r.left).toNat, (r.bottom - r.top).toNat⟩

/-- All pixels of a picture of the given size. -/
def whole (s : Size) : Rect := ⟨0, 0, s.width, s.height⟩

theorem has_cell_iff {x y c q : Nat} : (cell x y).Has c q ↔ c = x ∧ q = y := by
  simp only [Has, cell]
  omega

theorem Exact.exchanged {r : Rect} (h : r.Exact) (exchanged : Bool) :
    (if exchanged then r.transposed else r).Exact := by
  cases exchanged
  · exact h
  · exact h.symm

theorem Exact.span_eq {r : Rect} (h : r.Exact) : r.span = r.extent := by
  simp only [span, extent, width, height, signed32_eq h.1, signed32_eq h.2]

/-- The pixels of a rectangle, counted from its corner. -/
theorem has_iff_exists {r : Rect} (hl : 0 ≤ r.left) (ht : 0 ≤ r.top) {c q : Nat} :
    r.Has c q ↔ ∃ x y, x < r.extent.width ∧ y < r.extent.height ∧
      c = r.left.toNat + x ∧ q = r.top.toNat + y := by
  simp only [Has, extent]
  constructor
  · intro h
    exact ⟨c - r.left.toNat, q - r.top.toNat, by omega, by omega, by omega, by omega⟩
  · rintro ⟨x, y, hx, hy, rfl, rfl⟩
    omega

theorem Has.ordered {r : Rect} {x y : Nat} (h : r.Has x y) : r.Ordered := by
  simp only [Has] at h
  exact ⟨by omega, by omega⟩

theorem Fits.lt {r : Rect} {s : Size} (h : r.Fits s) {x y : Nat} (hp : r.Has x y) :
    x < s.width ∧ y < s.height := by
  simp only [Fits, Has] at h hp
  omega

theorem Fits.isEmpty_eq_false {r : Rect} {s : Size} (h : r.Fits s)
    (he : r.extent.isEmpty = false) : s.isEmpty = false := by
  rw [Size.isEmpty_eq_false_iff] at he ⊢
  simp only [Fits, extent] at h he
  omega

theorem fits_cell {s : Size} {x y : Nat} (hx : x < s.width) (hy : y < s.height) :
    (cell x y).Fits s := by
  simp only [Fits, cell]
  omega

theorem extent_whole (s : Size) : (whole s).extent = s := by
  simp [extent, whole]

theorem fits_whole (s : Size) : (whole s).Fits s := by
  simp only [Fits, whole]
  omega

end Rect

/-! ## Pictures -/

namespace Frame

theorem ext_pixel? {f g : Frame} (hs : f.size = g.size)
    (h : ∀ x y, x < f.width → y < f.height → f.pixel? x y = g.pixel? x y) : f = g := by
  obtain ⟨⟨w, hgt, ps⟩, hps⟩ := f
  obtain ⟨⟨w', hgt', ps'⟩, hps'⟩ := g
  obtain ⟨rfl, rfl⟩ := Size.mk.inj hs
  have hp : ps = ps' := by
    refine Array.ext (hps.trans hps'.symm) fun i hi hi' => ?_
    have hin : i < w * hgt := hps ▸ hi
    have hw : 0 < w := Nat.pos_of_mul_pos_right (Nat.zero_lt_of_lt hin)
    have hx : i % w < w := Nat.mod_lt _ hw
    have hy : i / w < hgt := Nat.div_lt_of_lt_mul hin
    have hxy := h (i % w) (i / w) hx hy
    rw [Canvas.pixel?_eq_getElem? hx hy, Canvas.pixel?_eq_getElem? (c := ⟨w, hgt, ps'⟩) hx hy] at hxy
    simp only [Nat.div_add_mod'] at hxy
    rwa [Array.getElem?_eq_getElem, Array.getElem?_eq_getElem, Option.some.injEq] at hxy
  subst hp
  rfl

/-- The picture of the given size whose pixel in column `x` and row `y` is that of `f` at
`place x y`. -/
def pick (f : Frame) (s : Size) (place : Nat → Nat → Nat × Nat) : Frame :=
  ofFn s.width s.height fun x y => (f.pixel? (place x y).1 (place x y).2).getD .transparent

theorem pixel?_pick {f : Frame} {s : Size} {place : Nat → Nat → Nat × Nat} {x y : Nat}
    (hx : x < s.width) (hy : y < s.height)
    (hp : (place x y).1 < f.width ∧ (place x y).2 < f.height) :
    (f.pick s place).pixel? x y = f.pixel? (place x y).1 (place x y).2 := by
  obtain ⟨color, hc⟩ := Option.isSome_iff_exists.1 (isSome_pixel?.2 hp)
  rw [pick, pixel?_ofFn _ hx hy, hc]
  rfl

/-- The part of the picture in a rectangle. -/
def cut (f : Frame) (r : Rect) : Frame :=
  f.pick r.extent fun x y => (r.left.toNat + x, r.top.toNat + y)

/-- Left and right exchanged. -/
def mirrored (f : Frame) : Frame := f.pick f.size fun x y => (f.width - 1 - x, y)

/-- A quarter turn clockwise. -/
def turned (f : Frame) : Frame := f.pick f.size.rotate fun x y => (y, f.height - 1 - x)

/-- What a viewport of the picture shows. The viewport counts from the bottom, what it shows from the
top. -/
def through (f : Frame) (v : Viewport) : Frame :=
  f.pick v.size fun x y => (v.x + x, f.height - (v.y + v.height) + y)

end Frame

/-! ## Orientations -/

namespace Orientation

variable {α β : Type} (o : Orientation) (displayTurns : Nat) (locked : Bool)

/-- Something shown in an orientation, given how it is turned clockwise and how it is mirrored. If the
orientation is locked, it is turned with the display first. Then it is mirrored if the orientation is
flipped, and turned by the quarter turns of the orientation. -/
def shown (turn mirror : α → α) (a : α) : α :=
  let upright := if locked then turn^[displayTurns] a else a
  turn^[o.turns.val] (if o.flipped then mirror upright else upright)

/-- What turning and mirroring keep, showing in an orientation keeps. -/
theorem shown_inv {R : α → β → Prop} {turn mirror : α → α} {turn' mirror' : β → β}
    (ht : ∀ a b, R a b → R (turn a) (turn' b)) (hm : ∀ a b, R a b → R (mirror a) (mirror' b))
    {a : α} {b : β} (h : R a b) :
    R (o.shown displayTurns locked turn mirror a) (o.shown displayTurns locked turn' mirror' b) := by
  have iterate : ∀ n a b, R a b → R (turn^[n] a) (turn'^[n] b) := by
    intro n
    induction n with
    | zero => exact fun a b h => h
    | succ n ih =>
      intro a b h
      rw [Function.iterate_succ_apply, Function.iterate_succ_apply]
      exact ih _ _ (ht a b h)
  have upright : R (if locked then turn^[displayTurns] a else a)
      (if locked then turn'^[displayTurns] b else b) := by
    split
    · exact iterate _ _ _ h
    · exact h
  refine iterate _ _ _ ?_
  split
  · exact hm _ _ upright
  · exact upright

theorem shown_id (a : α) : o.shown displayTurns locked id id a = a := by
  simp [shown]

/-- What does not change when something is turned or mirrored, does not change when it is shown. -/
theorem apply_shown {f : α → β} {turn mirror : α → α} (ht : ∀ a, f (turn a) = f a)
    (hm : ∀ a, f (mirror a) = f a) (a : α) :
    f (o.shown displayTurns locked turn mirror a) = f a := by
  have h : f (o.shown displayTurns locked turn mirror a) = f (o.shown displayTurns locked id id a) := by
    refine o.shown_inv (R := fun a b : α => f a = f b) _ _ ?_ ?_ rfl
    · exact fun a _ h => (ht a).trans h
    · exact fun a _ h => (hm a).trans h
  rwa [shown_id] at h

theorem isEmpty_shown (s : Size) :
    (o.shown displayTurns locked Size.rotate id s).isEmpty = s.isEmpty :=
  o.apply_shown displayTurns locked Size.isEmpty_rotate (fun _ => rfl) s

end Orientation

/-- A picture shown in an orientation on a display that is turned itself. -/
def Frame.shown (f : Frame) (displayTurns : Nat) (locked : Bool) (o : Orientation) : Frame :=
  o.shown displayTurns locked Frame.turned Frame.mirrored f

end RegionCapture
