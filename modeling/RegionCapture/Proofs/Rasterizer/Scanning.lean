import RegionCapture.Proofs.Frame.Views
import RegionCapture.Proofs.Rasterizer.Painting
import RegionCapture.Scalar.Exact
import RegionCapture.Text.Numeral
/-!
# Drawing one pixel after the other

`Rasterizer.drawn` says at once what a quad leaves of a whole target. A machine goes through the rows
and through the columns of each, in numbers of 32 bits that are never negative. `scan?` is that: it gives
nothing where a difference would be below zero or a pixel is not there. Neither ever happens, and in
whatever order the rows are taken, both ways end in the same picture (`scan?_eq`).
-/

namespace RegionCapture

/-- The difference of two numbers, none if it would be below zero. -/
def minus? (a b : Nat) : Option Nat := if b ≤ a then some (a - b) else none

theorem minus?_of_le {a b : Nat} (h : b ≤ a) : minus? a b = some (a - b) := if_pos h

/-- The sum of two numbers, or the largest number of 32 bits if that is smaller. -/
def saturatingAdd (a b : Nat) : Nat := min (a + b) Text.maxNat32

namespace Frame

/-- The picture with another colour in column `x` and row `y`, none if there is no such pixel. -/
def put? (f : Frame) (x y : Nat) (color : Rgba) : Option Frame :=
  if h : x < f.width ∧ y < f.height then
    some
      { f with
        pixels := f.pixels.set (y * f.width + x) color (f.size_pixels.index_lt h.1 h.2)
        size_pixels := (Array.size_set (f.size_pixels.index_lt h.1 h.2)).trans f.size_pixels }
  else none

theorem put?_of_lt {f : Frame} {x y : Nat} (hx : x < f.width) (hy : y < f.height) (color : Rgba) :
    ∃ g, f.put? x y color = some g ∧ g.size = f.size ∧ g.pixel? x y = some color ∧
      ∀ c r, ¬ (r = y ∧ c = x) → g.pixel? c r = f.pixel? c r := by
  refine ⟨_, dif_pos ⟨hx, hy⟩, rfl, ?_, fun c r hne => ?_⟩
  · rw [Canvas.pixel?_eq_getElem? (by exact hx) (by exact hy)]
    simp
  · simp only [Canvas.pixel?]
    split
    · next hin =>
      simp only [Bool.and_eq_true, decide_eq_true_eq] at hin
      -- the places of two pixels in the array are different
      have hplace : y * f.width + x ≠ r * f.width + c := by
        intro he
        have hmod := congrArg (· % f.width) he
        have hdiv := congrArg (· / f.width) he
        simp only [Canvas.index_mod y hx, Canvas.index_mod r hin.1, Canvas.index_div y hx,
          Canvas.index_div r hin.1] at hmod hdiv
        exact hne ⟨hdiv.symm, hmod.symm⟩
      rw [Array.getElem?_set_ne _ hplace]
    · rfl

/-- A picture that is as a new one at some places, and as the old one at all others. -/
structure Replaced (old new : Frame) (places : Nat → Nat → Prop) (f : Frame) : Prop where
  size : f.size = old.size
  there : ∀ c r, places c r → f.pixel? c r = new.pixel? c r
  elsewhere : ∀ c r, ¬ places c r → f.pixel? c r = old.pixel? c r

namespace Replaced

variable {old new f : Frame} {places places' : Nat → Nat → Prop}

theorem start : Replaced old new (fun _ _ => False) old :=
  ⟨rfl, nofun, fun _ _ _ => rfl⟩

/-- Where the new picture is as the old one, places may be added. -/
theorem grow (h : Replaced old new places f) (hsub : ∀ c r, places c r → places' c r)
    (hsame : ∀ c r, places' c r → ¬ places c r → new.pixel? c r = old.pixel? c r) :
    Replaced old new places' f := by
  refine ⟨h.size, fun c r hc => ?_, fun c r hc => h.elsewhere c r fun hp => hc (hsub c r hp)⟩
  by_cases hp : places c r
  · exact h.there c r hp
  · exact (h.elsewhere c r hp).trans (hsame c r hc hp).symm

theorem congr (h : Replaced old new places f) (hiff : ∀ c r, places c r ↔ places' c r) :
    Replaced old new places' f :=
  h.grow (fun c r => (hiff c r).1) fun c r hc hn => absurd ((hiff c r).2 hc) hn

theorem put (h : Replaced old new places f) {x y : Nat} (hx : x < old.width) (hy : y < old.height)
    {color : Rgba} (hcolor : new.pixel? x y = some color) :
    ∃ g, f.put? x y color = some g ∧
      Replaced old new (fun c r => places c r ∨ (r = y ∧ c = x)) g := by
  obtain ⟨hw, hh⟩ := Size.mk.inj h.size
  obtain ⟨g, hg, hsize, hat, hrest⟩ := put?_of_lt (hw ▸ hx) (hh ▸ hy) color
  refine ⟨g, hg, hsize.trans h.size, fun c r hc => ?_, fun c r hc => ?_⟩
  · by_cases hxy : r = y ∧ c = x
    · obtain ⟨rfl, rfl⟩ := hxy
      exact hat.trans hcolor.symm
    · exact (hrest c r hxy).trans (h.there c r (hc.resolve_right hxy))
  · obtain ⟨hp, hxy⟩ := not_or.1 hc
    exact (hrest c r hxy).trans (h.elsewhere c r hp)

theorem eq_new (h : Replaced old new places f) (hs : new.size = old.size)
    (hall : ∀ c r, c < old.width → r < old.height → places c r) : f = new := by
  obtain ⟨hw, hh⟩ := Size.mk.inj h.size
  exact ext_pixel? (h.size.trans hs.symm) fun c r hc hr =>
    h.there c r (hall c r (hw ▸ hc) (hh ▸ hr))

end Replaced

end Frame

namespace Rasterizer

variable {L : Type} [Coordinate L]

/-! ## The loops -/

/-- The nearest pixel of the texture, which has to be there. -/
def sample? (texture : Frame) (u v : L) : Option Rgba := do
  let right ← minus? texture.width 1
  let bottom ← minus? texture.height 1
  texture.pixel? (min (Coordinate.cell (u * Scalar.ofNat texture.width)) right)
    (min (Coordinate.cell (v * Scalar.ofNat texture.height)) bottom)

def fragment? (m : Mat4 L) (texture : Frame) (viewport : Size) (x y : Nat) : Option Rgba :=
  let (u, v) := texCoords m viewport x y
  if Coordinate.isUnit u && Coordinate.isUnit v then sample? texture u v else some .transparent

variable (m : Mat4 L) (texture : Frame) (v : Viewport)

/-- Draw the pixel in column `x` of a row that is row `y` of the viewport. -/
def scanPixel? (row y : Nat) (target : Frame) (x : Nat) : Option Frame := do
  let column ← minus? x v.x
  let color ← fragment? m texture v.size column y
  target.put? x row color

/-- Draw the columns of a row that is row `y` of the viewport, as far as target and viewport reach. -/
def scanColumns? (row y : Nat) (target : Frame) : Option Frame :=
  let first := min v.x target.width
  let past := min (saturatingAdd v.x v.width) target.width
  (List.range' first (past - first)).foldlM (scanPixel? m texture v row y) target

/-- Draw a row of the target, if it meets the viewport. -/
def scanRow? (target : Frame) (row : Nat) : Option Frame := do
  let last ← minus? target.height 1
  let up ← minus? last row
  if up < v.y then some target
  else do
    let y ← minus? up v.y
    if v.height ≤ y then some target else scanColumns? m texture v row y target

/-- Draw rows of the target, in the order given. -/
def scan? (rows : List Nat) (target : Frame) : Option Frame :=
  if v.size.isEmpty then some target else rows.foldlM (scanRow? m texture v) target

/-! ## What they leave -/

variable {m texture v}

theorem sample?_eq (h : texture.size.isEmpty = false) (a b : L) :
    sample? texture a b = some (sample texture a b) := by
  have hpos := Size.isEmpty_eq_false_iff.1 h
  have hw : 0 < texture.width := hpos.1
  have hh : 0 < texture.height := hpos.2
  simp only [sample?, sample, minus?_of_le (Nat.succ_le_of_lt hw),
    minus?_of_le (Nat.succ_le_of_lt hh), Option.bind_eq_bind, Option.bind_some]
  generalize Coordinate.cell (a * _) = i, Coordinate.cell (b * _) = j
  have hcell : (texture.pixel? (min i (texture.width - 1)) (min j (texture.height - 1))).isSome :=
    Frame.isSome_pixel?.2 (by omega)
  obtain ⟨color, hcolor⟩ := Option.isSome_iff_exists.1 hcell
  rw [hcolor, Option.getD_some]

theorem fragment?_eq (h : texture.size.isEmpty = false) (viewport : Size) (x y : Nat) :
    fragment? m texture viewport x y = some (fragment m texture viewport x y) := by
  simp only [fragment?, fragment]
  split
  · exact sample?_eq h _ _
  · rfl

theorem fragment_cases (m : Mat4 L) (texture : Frame) (viewport : Size) (x y : Nat) :
    fragment m texture viewport x y = .transparent ∨
      ∃ c r, texture.pixel? c r = some (fragment m texture viewport x y) := by
  simp only [fragment, sample]
  split
  · generalize min _ (texture.width - 1) = c, min _ (texture.height - 1) = r
    cases hp : texture.pixel? c r with
    | none => exact .inl rfl
    | some color => exact .inr ⟨c, r, hp⟩
  · exact .inl rfl

/-- The picture after a quad is drawn on it. -/
def drawnOn (m : Mat4 L) (texture : Frame) (v : Viewport) (t : Frame) : Frame :=
  ⟨drawn m texture v t.toCanvas, whole_drawn t.size_pixels m texture v⟩

theorem pixel?_drawnOn (t : Frame) (c r : Nat) :
    (drawnOn m texture v t).pixel? c r = (t.pixel? c r).map fun color =>
      if v.contains c (t.height - 1 - r) then
        fragment m texture v.size (c - v.x) (t.height - 1 - r - v.y)
      else color :=
  pixel?_drawn m texture v t.size_pixels c r

theorem pixel?_drawn_outside {t : Frame} {c r : Nat}
    (h : ¬ v.contains c (t.height - 1 - r) = true) :
    (drawnOn m texture v t).pixel? c r = t.pixel? c r := by
  rw [pixel?_drawnOn]
  simp [h]

theorem pixel?_drawn_inside {t : Frame} {c r : Nat} (hc : c < t.width) (hr : r < t.height)
    (h : v.contains c (t.height - 1 - r) = true) :
    (drawnOn m texture v t).pixel? c r =
      some (fragment m texture v.size (c - v.x) (t.height - 1 - r - v.y)) := by
  obtain ⟨color, hcolor⟩ := Option.isSome_iff_exists.1 (Frame.isSome_pixel?.2 ⟨hc, hr⟩)
  rw [pixel?_drawnOn, hcolor, Option.map_some, if_pos h]

variable {t : Frame}

/-- Columns of a row that lie in target and viewport come out as drawn. -/
theorem foldlM_scanPixel? (hfull : texture.size.isEmpty = false) {row : Nat} (hrow : row < t.height)
    {places : Nat → Nat → Prop} {f : Frame}
    (h : Frame.Replaced t (drawnOn m texture v t) places f) {columns : List Nat}
    (hin : ∀ x ∈ columns, x < t.width ∧ v.contains x (t.height - 1 - row) = true) :
    ∃ g, columns.foldlM (scanPixel? m texture v row (t.height - 1 - row - v.y)) f = some g ∧
      Frame.Replaced t (drawnOn m texture v t)
        (fun c r => places c r ∨ (r = row ∧ c ∈ columns)) g := by
  induction columns generalizing places f with
  | nil => exact ⟨f, rfl, h.congr fun c r => by simp⟩
  | cons x columns ih =>
    rw [List.forall_mem_cons] at hin
    obtain ⟨⟨hx, hcont⟩, hrest⟩ := hin
    obtain ⟨g, hput, hg⟩ := h.put hx hrow (pixel?_drawn_inside hx hrow hcont)
    obtain ⟨g', hfold, hg'⟩ := ih hg hrest
    refine ⟨g', ?_, hg'.congr fun c r => by rw [List.mem_cons, or_assoc, ← and_or_left]⟩
    have hle : v.x ≤ x := (Viewport.contains_iff.1 hcont).1
    simp only [List.foldlM_cons, scanPixel?, minus?_of_le hle, fragment?_eq hfull, hput,
      Option.bind_eq_bind, Option.bind_some]
    exact hfold

theorem scanRow?_of_lt {row : Nat} (hrow : row < t.height) : scanRow? m texture v t row =
    if t.height - 1 - row < v.y then some t
    else if v.height ≤ t.height - 1 - row - v.y then some t
    else scanColumns? m texture v row (t.height - 1 - row - v.y) t := by
  have hlast : 1 ≤ t.height := by omega
  have hup : row ≤ t.height - 1 := by omega
  simp only [scanRow?, minus?_of_le hlast, minus?_of_le hup, Option.bind_eq_bind, Option.bind_some]
  split
  · rfl
  · next hlow =>
    rw [minus?_of_le (by omega), Option.bind_some]

/-- The columns that are drawn of a row that meets the viewport. -/
theorem mem_columns {y : Nat} (hw : t.width ≤ Text.maxNat32) (hlow : ¬ y < v.y)
    (hhigh : ¬ v.height ≤ y - v.y) (x : Nat) :
    x ∈ List.range' (min v.x t.width)
        (min (saturatingAdd v.x v.width) t.width - min v.x t.width) ↔
      x < t.width ∧ v.contains x y = true := by
  simp only [List.mem_range'_1, Viewport.contains_iff, saturatingAdd]
  omega

theorem scanRow?_eq (hfull : texture.size.isEmpty = false) (hw : t.width ≤ Text.maxNat32)
    {row : Nat} (hrow : row < t.height) {places : Nat → Nat → Prop} {f : Frame}
    (h : Frame.Replaced t (drawnOn m texture v t) places f) :
    ∃ g, scanRow? m texture v f row = some g ∧
      Frame.Replaced t (drawnOn m texture v t) (fun c r => places c r ∨ r = row) g := by
  obtain ⟨hfw, hfh⟩ := Size.mk.inj h.size
  -- a row that does not meet the viewport stays as it is
  have skip (hout : ∀ c, ¬ v.contains c (t.height - 1 - row) = true) :
      Frame.Replaced t (drawnOn m texture v t) (fun c r => places c r ∨ r = row) f := by
    refine h.grow (fun _ _ => .inl) fun c r hc hn => ?_
    obtain rfl := hc.resolve_left hn
    exact pixel?_drawn_outside (hout c)
  rw [scanRow?_of_lt (hfh ▸ hrow), hfh]
  split
  · next hlow =>
    exact ⟨f, rfl, skip fun c hc => by rw [Viewport.contains_iff] at hc; omega⟩
  split
  · next hhigh =>
    exact ⟨f, rfl, skip fun c hc => by rw [Viewport.contains_iff] at hc; omega⟩
  · next hlow hhigh =>
    have hmem := mem_columns (t := f) (hfw ▸ hw) hlow hhigh
    rw [hfw] at hmem
    obtain ⟨g, hg, hrep⟩ := foldlM_scanPixel? hfull hrow h fun x hx => (hmem x).1 hx
    refine ⟨g, by rwa [scanColumns?, hfw], hrep.grow (fun c r => Or.imp_right And.left) ?_⟩
    intro c r hc hn
    obtain ⟨hp, hcol⟩ := not_or.1 hn
    obtain rfl := hc.resolve_left hp
    by_cases hcw : c < t.width
    · exact pixel?_drawn_outside fun hin => hcol ⟨rfl, (hmem c).2 ⟨hcw, hin⟩⟩
    · rw [pixel?_drawnOn, Canvas.pixel?_eq_none fun hlt => hcw hlt.1]
      rfl

/-- Rows come out as drawn, in whatever order they are taken. -/
theorem foldlM_scanRow? (hfull : texture.size.isEmpty = false) (hw : t.width ≤ Text.maxNat32)
    {rows : List Nat} (hrows : ∀ row ∈ rows, row < t.height) {places : Nat → Nat → Prop} {f : Frame}
    (h : Frame.Replaced t (drawnOn m texture v t) places f) :
    ∃ g, rows.foldlM (scanRow? m texture v) f = some g ∧
      Frame.Replaced t (drawnOn m texture v t) (fun c r => places c r ∨ r ∈ rows) g := by
  induction rows generalizing places f with
  | nil => exact ⟨f, rfl, h.congr fun c r => by simp⟩
  | cons row rows ih =>
    rw [List.forall_mem_cons] at hrows
    obtain ⟨g, hrow, hg⟩ := scanRow?_eq hfull hw hrows.1 h
    obtain ⟨g', hfold, hg'⟩ := ih hrows.2 hg
    refine ⟨g', ?_, hg'.congr fun c r => by rw [List.mem_cons, or_assoc]⟩
    rw [List.foldlM_cons, hrow]
    exact hfold

/-- Going through all rows, in any order, leaves the target as drawn. -/
theorem scan?_eq (hfull : texture.size.isEmpty = false) (hw : t.width ≤ Text.maxNat32)
    {rows : List Nat} (hrows : rows.Perm (List.range t.height)) :
    scan? m texture v rows t = some (drawnOn m texture v t) := by
  have hmem (r : Nat) : r ∈ rows ↔ r < t.height := hrows.mem_iff.trans List.mem_range
  unfold scan?
  split
  · next hempty =>
    refine congrArg some (Frame.ext_pixel? rfl fun c r _ _ => (pixel?_drawn_outside fun hc => ?_).symm)
    rw [Viewport.contains_iff] at hc
    simp only [Size.isEmpty, Viewport.size, Bool.or_eq_true, beq_iff_eq] at hempty
    omega
  · have hstart : Frame.Replaced t (drawnOn m texture v t) (fun _ _ => False) t := .start
    obtain ⟨g, hg, hrep⟩ := foldlM_scanRow? hfull hw (fun r => (hmem r).1) hstart
    rw [hg, hrep.eq_new rfl fun c r _ hr => .inr ((hmem r).2 hr)]

/-! ## Drawing -/

/-- Of two targets, the second has the pixels of a viewport replaced by their fragments, and is the same
everywhere else. Rows count from the bottom, and the viewport may reach beyond the target. -/
structure Filled (m : Mat4 L) (texture : Frame) (v : Viewport) (t t' : Frame) : Prop where
  size : t'.size = t.size
  inside : ∀ c g, c < t.width → g < t.height →
    v.x ≤ c ∧ c < v.x + v.width → v.y ≤ g ∧ g < v.y + v.height →
    t'.pixel? c (t.height - 1 - g) = some (fragment m texture v.size (c - v.x) (g - v.y))
  outside : ∀ c g, c < t.width → g < t.height →
    ¬ ((v.x ≤ c ∧ c < v.x + v.width) ∧ v.y ≤ g ∧ g < v.y + v.height) →
    t'.pixel? c (t.height - 1 - g) = t.pixel? c (t.height - 1 - g)

theorem filled_drawn (m : Mat4 L) (texture : Frame) (v : Viewport) (t : Frame) :
    Filled m texture v t (drawnOn m texture v t) where
  size := rfl
  inside c g hc hg hx hy := by
    have hup : t.height - 1 - (t.height - 1 - g) = g := by omega
    have hin : v.contains c g = true := Viewport.contains_iff.2 ⟨hx.1, hx.2, hy⟩
    rw [pixel?_drawn_inside hc (by omega) (by rwa [hup]), hup]
  outside c g hc hg hout := by
    refine pixel?_drawn_outside fun hin => hout ?_
    have hup : t.height - 1 - (t.height - 1 - g) = g := by omega
    rw [hup, Viewport.contains_iff] at hin
    exact ⟨⟨hin.1, hin.2.1⟩, hin.2.2⟩

/-- A target of 4 by 2 pixels with nothing drawn on it. -/
def blankTarget : Frame := Frame.ofFn 4 2 fun _ _ => .transparent

/-- One white pixel. -/
def whitePixel : Frame := Frame.ofFn 1 1 fun _ _ => ⟨255, 255, 255, 255⟩

/-- About to draw a white quad that reaches beyond the right and the upper edge of a blank target. -/
def cornered : Rasterizer Rat :=
  { new with
    target := some blankTarget.toCanvas
    current := some 1
    input := some whitePixel
    viewport := some ⟨3, 1, 5, 0xffffffff⟩ }

end Rasterizer

end RegionCapture
