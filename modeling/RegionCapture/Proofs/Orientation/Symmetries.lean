import RegionCapture.Proofs.Region.Cells
/-!
# The eight symmetries of a picture

An orientation exchanges the axes of a picture or not, and meets its columns and its rows from the other
end or not. `Orientation.origin` says where a position of the oriented picture is in the picture itself,
for points and for pixels alike. The pixels of the two correspond one to one (`exists_pixel_eq`,
`pixel_inj`), and a picture shown in an orientation shows just these pixels (`Frame.pixel?_shown`).
-/

namespace RegionCapture

/-! ## One axis -/

/-- A place along an axis that ends at `last`, counted from the other end if the axis is reversed. -/
def along {α : Type} [Sub α] (reversed : Bool) (last i : α) : α := if reversed then last - i else i

section

variable {reversed : Bool} {i j n : Nat}

theorem along_not (reversed : Bool) (last i : Rat) :
    along (!reversed) last i = along reversed last (last - i) := by
  cases reversed <;> simp [along]

theorem along_not_pixel (reversed : Bool) (h : i < n) :
    along (!reversed) (n - 1) i = along reversed (n - 1) (n - 1 - i) := by
  cases reversed <;> simp only [along] <;> simp
  omega

theorem along_lt (reversed : Bool) (h : i < n) : along reversed (n - 1) i < n := by
  unfold along
  split <;> omega

theorem along_along (h : i < n) : along reversed (n - 1) (along reversed (n - 1) i) = i := by
  unfold along
  split <;> omega

theorem along_inj (hi : i < n) (hj : j < n) (h : along reversed (n - 1) i = along reversed (n - 1) j) :
    i = j := by
  rw [← along_along hi, h, along_along hj]

theorem along_pixel (h : i < n) (t : Rat) :
    along reversed (n : Rat) (i + t) = (along reversed (n - 1) i : Nat) + along reversed 1 t := by
  cases reversed with
  | false => rfl
  | true =>
    simp only [along, if_true, Size.cast_last_sub h]
    ring

/-- Between the ends, from either end. -/
theorem along_between (reversed : Bool) {last t : Rat} (h₀ : 0 < t) (h : t < last) :
    0 < along reversed last t ∧ along reversed last t < last := by
  cases reversed with
  | false => exact ⟨h₀, h⟩
  | true => exact ⟨sub_pos.2 h, sub_lt_self last h₀⟩

theorem along_half (reversed : Bool) : along reversed (1 : Rat) (1 / 2) = 1 / 2 := by
  cases reversed
  · rfl
  · norm_num [along]

end

namespace Orientation

/-! ## Two axes -/

/-- Followed by a quarter turn clockwise. -/
def turned (o : Orientation) : Orientation :=
  ⟨o.flipped, ⟨(o.turns.val + 1) % 4, Nat.mod_lt _ (Nat.succ_pos 3)⟩⟩

/-- Followed by a flip. A flip takes the turns before it to turns the other way. -/
def mirrored (o : Orientation) : Orientation :=
  ⟨!o.flipped, ⟨(4 - o.turns.val) % 4, Nat.mod_lt _ (Nat.succ_pos 3)⟩⟩

/-- Rows become columns. -/
def exchanges (o : Orientation) : Bool := o.turns.val % 2 == 1

/-- The columns of the picture are met from the last one on. -/
def reversesColumns (o : Orientation) : Bool := o.flipped ^^ (2 ≤ o.turns.val)

/-- The rows of the picture are met from the last one on. -/
def reversesRows (o : Orientation) : Bool := o.turns.val == 1 || o.turns.val == 2

/-- The size of an oriented picture. -/
def size (o : Orientation) (s : Size) : Size := if o.exchanges then s.rotate else s

/-- Where a position of the oriented picture is in the picture itself, whose columns end at `w` and
whose rows end at `h`. -/
def origin {α : Type} [Sub α] (o : Orientation) (w h : α) (p : α × α) : α × α :=
  let q := if o.exchanges then (p.2, p.1) else p
  (along o.reversesColumns w q.1, along o.reversesRows h q.2)

/-- The pixel of a picture that the oriented picture shows in column `x` and row `y`. -/
def pixel (o : Orientation) (s : Size) (x y : Nat) : Nat × Nat :=
  o.origin (s.width - 1) (s.height - 1) (x, y)

/-- What can be decided for each orientation can be decided for all eight. -/
instance {P : Orientation → Prop} [DecidablePred P] : Decidable (∀ o, P o) :=
  decidable_of_iff (∀ o ∈ all, P o) ⟨fun h o => h o o.mem_all, fun h o _ => h o⟩

theorem exchanges_turned : ∀ o : Orientation, o.turned.exchanges = !o.exchanges := by
  decide

theorem reversesColumns_turned :
    ∀ o : Orientation, o.turned.reversesColumns = (o.reversesColumns ^^ o.exchanges) := by
  decide

theorem reversesRows_turned :
    ∀ o : Orientation, o.turned.reversesRows = (o.reversesRows ^^ !o.exchanges) := by
  decide

theorem exchanges_mirrored : ∀ o : Orientation, o.mirrored.exchanges = o.exchanges := by
  decide

theorem reversesColumns_mirrored :
    ∀ o : Orientation, o.mirrored.reversesColumns = (o.reversesColumns ^^ !o.exchanges) := by
  decide

theorem reversesRows_mirrored :
    ∀ o : Orientation, o.mirrored.reversesRows = (o.reversesRows ^^ o.exchanges) := by
  decide

variable (o : Orientation)

theorem size_turned (s : Size) : o.turned.size s = (o.size s).rotate := by
  unfold size
  rw [exchanges_turned]
  cases o.exchanges <;> rfl

theorem size_mirrored (s : Size) : o.mirrored.size s = o.size s := by
  unfold size
  rw [exchanges_mirrored]

@[simp] theorem size_size (s : Size) : o.size (o.size s) = s := by
  unfold size
  cases o.exchanges <;> rfl

theorem isEmpty_size (s : Size) : (o.size s).isEmpty = s.isEmpty := by
  unfold size
  split
  · exact Size.isEmpty_rotate s
  · rfl

theorem origin_turned (s : Size) (p : Point) : o.turned.origin (s.width : Rat) s.height p =
    o.origin (s.width : Rat) s.height (p.2, (o.size s).height - p.1) := by
  unfold origin size
  rw [exchanges_turned, reversesColumns_turned, reversesRows_turned]
  cases o.exchanges <;> simp [along_not, Size.rotate]

theorem origin_mirrored (s : Size) (p : Point) : o.mirrored.origin (s.width : Rat) s.height p =
    o.origin (s.width : Rat) s.height ((o.size s).width - p.1, p.2) := by
  unfold origin size
  rw [exchanges_mirrored, reversesColumns_mirrored, reversesRows_mirrored]
  cases o.exchanges <;> simp [along_not, Size.rotate]

/-! ## Pixels -/

variable {o} {s : Size} {x y x' y' c q : Nat}

theorem pixel_turned (hx : x < (o.size s).height) :
    o.turned.pixel s x y = o.pixel s y ((o.size s).height - 1 - x) := by
  unfold size at hx ⊢
  unfold pixel origin
  rw [exchanges_turned, reversesColumns_turned, reversesRows_turned]
  cases he : o.exchanges with
  | false =>
    have hx' : x < s.height := by simpa [he] using hx
    simp [along_not_pixel _ hx']
  | true =>
    have hx' : x < s.width := by simpa [he, Size.rotate] using hx
    simp [along_not_pixel _ hx', Size.rotate]

theorem pixel_mirrored (hx : x < (o.size s).width) :
    o.mirrored.pixel s x y = o.pixel s ((o.size s).width - 1 - x) y := by
  unfold size at hx ⊢
  unfold pixel origin
  rw [exchanges_mirrored, reversesColumns_mirrored, reversesRows_mirrored]
  cases he : o.exchanges with
  | false =>
    have hx' : x < s.width := by simpa [he] using hx
    simp [along_not_pixel _ hx']
  | true =>
    have hx' : x < s.height := by simpa [he, Size.rotate] using hx
    simp [along_not_pixel _ hx', Size.rotate]

theorem pixel_lt (hx : x < (o.size s).width) (hy : y < (o.size s).height) :
    (o.pixel s x y).1 < s.width ∧ (o.pixel s x y).2 < s.height := by
  unfold size at hx hy
  unfold pixel origin
  cases he : o.exchanges <;> rw [he] at hx hy
  · exact ⟨along_lt _ hx, along_lt _ hy⟩
  · exact ⟨along_lt _ hy, along_lt _ hx⟩

theorem exists_pixel_eq (hc : c < s.width) (hq : q < s.height) :
    ∃ x y, x < (o.size s).width ∧ y < (o.size s).height ∧ o.pixel s x y = (c, q) := by
  have hc' := along_lt o.reversesColumns hc
  have hq' := along_lt o.reversesRows hq
  unfold size pixel origin
  cases o.exchanges with
  | false => exact ⟨_, _, hc', hq', Prod.ext (along_along hc) (along_along hq)⟩
  | true => exact ⟨_, _, hq', hc', Prod.ext (along_along hc) (along_along hq)⟩

theorem pixel_inj (hx : x < (o.size s).width) (hy : y < (o.size s).height)
    (hx' : x' < (o.size s).width) (hy' : y' < (o.size s).height)
    (h : o.pixel s x y = o.pixel s x' y') : x = x' ∧ y = y' := by
  obtain ⟨hc, hq⟩ := Prod.mk.inj h
  unfold size at hx hy hx' hy'
  cases he : o.exchanges <;> rw [he] at hx hy hx' hy' hc hq
  · exact ⟨along_inj hx hx' hc, along_inj hy hy' hq⟩
  · exact ⟨along_inj hx hx' hq, along_inj hy hy' hc⟩

theorem origin_pixel (hx : x < (o.size s).width) (hy : y < (o.size s).height) (t : Rat) :
    o.origin (s.width : Rat) s.height (x + t, y + t) =
      ((o.pixel s x y).1 + along o.reversesColumns 1 t,
        (o.pixel s x y).2 + along o.reversesRows 1 t) := by
  unfold size at hx hy
  unfold pixel origin
  cases he : o.exchanges <;> rw [he] at hx hy
  · exact Prod.ext (along_pixel hx t) (along_pixel hy t)
  · exact Prod.ext (along_pixel hy t) (along_pixel hx t)

/-! ## Orientations on a display -/

/-- What an orientation comes to on a display that is turned itself. If it is locked, the turns of the
display go first. -/
def net (o : Orientation) (displayTurns : Nat) (locked : Bool) : Orientation :=
  o.shown displayTurns locked turned mirrored .upright

end Orientation

/-- Shown in an orientation, a picture shows the pixels that the orientation says. -/
theorem Frame.pixel?_shown (f : Frame) (o : Orientation) (displayTurns : Nat) (locked : Bool) :
    (f.shown displayTurns locked o).size = (o.net displayTurns locked).size f.size ∧
      ∀ x y, x < ((o.net displayTurns locked).size f.size).width →
        y < ((o.net displayTurns locked).size f.size).height →
        (f.shown displayTurns locked o).pixel? x y =
          f.pixel? ((o.net displayTurns locked).pixel f.size x y).1
            ((o.net displayTurns locked).pixel f.size x y).2 := by
  refine o.shown_inv (R := fun (g : Frame) (o : Orientation) => g.size = o.size f.size ∧
    ∀ x y, x < (o.size f.size).width → y < (o.size f.size).height →
      g.pixel? x y = f.pixel? (o.pixel f.size x y).1 (o.pixel f.size x y).2) _ _ ?_ ?_
    ⟨rfl, fun _ _ _ _ => rfl⟩
  · -- a turn picks from the picture before it, where the pixels are known
    rintro g o ⟨hs, hp⟩
    rw [Orientation.size_turned, ← hs]
    refine ⟨rfl, fun x y (hx : x < g.height) (hy : y < g.width) => ?_⟩
    have hpick : g.turned.pixel? x y = g.pixel? y (g.height - 1 - x) :=
      Frame.pixel?_pick hx hy ⟨hy, by omega⟩
    rw [hpick, Orientation.pixel_turned (by rwa [← hs]), ← hs]
    rw [← hs] at hp
    exact hp _ _ hy (by simp only [Canvas.size]; omega)
  · rintro g o ⟨hs, hp⟩
    rw [Orientation.size_mirrored, ← hs]
    refine ⟨rfl, fun x y (hx : x < g.width) hy => ?_⟩
    have hpick : g.mirrored.pixel? x y = g.pixel? (g.width - 1 - x) y :=
      Frame.pixel?_pick hx hy ⟨by omega, hy⟩
    rw [hpick, Orientation.pixel_mirrored (by rwa [← hs]), ← hs]
    rw [← hs] at hp
    exact hp _ _ (by simp only [Canvas.size]; omega) hy

end RegionCapture
