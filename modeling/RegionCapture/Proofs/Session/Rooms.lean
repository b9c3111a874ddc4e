import RegionCapture.Proofs.Region.Sizes
import RegionCapture.Proofs.Session.Planned
/-!
# The room that a plan takes

A plan is made in two steps: first the regions, then everything else (`Plan.make_eq`). What keeps a
region from being made is what the plan fails with, and no crop is rejected after that. Apart from the
transforms, a plan follows from the sizes of the regions (`Plan.room_of_make`).
-/

namespace RegionCapture

variable {K : Type}

/-- What there is of a plan apart from transforms. -/
structure Room where
  output : Size
  viewports : List Viewport
  dual : Bool
  deriving DecidableEq, Repr

/-- The room that regions of the given sizes take, under a cap. -/
def Room.ofSizes (cap : Nat) : Size × Option Size → Room
  | (s, none) =>
    ⟨(s.limit cap).align, Layout.strip (if s.isEmpty then s else (s.limit cap).align) 0, false⟩
  | (s1, some s2) =>
    ⟨Size.align ⟨Layout.reservedWidth s1.align + Layout.reservedWidth s2.align,
        max (Layout.reservedHeight s1.align) (Layout.reservedHeight s2.align)⟩,
      Layout.strip s1.align 0 ++ Layout.strip s2.align (Layout.reservedWidth s1.align), true⟩

/-- The crops that are asked for. A first crop that is missing next to a second one has no area. -/
def Options.crops (o : Options K) : List Rect :=
  match o.crop2 with
  | none => o.crop.toList
  | some crop2 => [o.crop.getD Rect.zero, crop2]

namespace Plan

/-- The room that the regions of a plan take. -/
def room (p : Plan K) : Room := ⟨p.videoSize, p.layout.viewports, p.dual⟩

variable [Coefficient K] [Rotation K]

/-! ## First the regions, then the rest -/

/-- The regions that are asked for, or why one of them cannot be made. -/
def regions (o : Options K) (display : DisplayState) :
    Except Fault (Region K × Option (Region K)) :=
  match o.crop2 with
  | none => (region o display o.crop).map fun r => (r, none)
  | some crop2 =>
    (region o display (some (o.crop.getD Rect.zero))).bind fun r1 =>
      (region o display (some crop2)).map fun r2 => (r1, some r2)

omit [Rotation K] in
/-- The plan for regions that are made. -/
def ofRegions (cap : Nat) (display : DisplayState) :
    Region K × Option (Region K) → Except Fault (Plan K)
  | (r, none) => r.inverse.map fun inverse =>
    ⟨display, Layout.arrange (some (input r.size inverse)) none cap, display.size, inverse, none, false⟩
  | (r1, some r2) => r1.inverse.bind fun inverse1 => r2.inverse.map fun inverse2 =>
    ⟨display, Layout.arrange (some (input r1.size.align inverse1))
      (some (input r2.size.align inverse2)) cap, display.size, inverse1, inverse2, true⟩

theorem make_eq (o : Options K) (display : DisplayState) :
    make o display = (regions o display).bind (ofRegions o.cap display) := by
  unfold make regions
  cases o.crop2 with
  | none =>
    unfold single
    cases region o display o.crop <;> rfl
  | some crop2 =>
    dsimp only [pair]
    cases region o display (some (o.crop.getD Rect.zero)) with
    | error e => rfl
    | ok r1 => cases region o display (some crop2) <;> rfl

section

variable {α : Type} {g : Region K → α}

theorem map_regions (g : Region K → α) (o : Options K) (display : DisplayState) :
    (regions o display).map (Prod.map g (Option.map g)) =
      match o.crop2 with
      | none => ((region o display o.crop).map g).map fun a => (a, none)
      | some crop2 => ((region o display (some (o.crop.getD Rect.zero))).map g).bind fun a =>
        ((region o display (some crop2)).map g).map fun b => (a, some b) := by
  unfold regions
  cases o.crop2 with
  | none => cases region o display o.crop <;> rfl
  | some crop2 =>
    dsimp only
    cases region o display (some (o.crop.getD Rect.zero)) with
    | error e => rfl
    | ok r1 => cases region o display (some crop2) <;> rfl

/-- If each region looks like the one made elsewhere, so do all the regions of a plan. -/
theorem map_regions_congr {f : Fault → Fault} {o o' : Options K} {display display' : DisplayState}
    (h : ∀ crop, (region o' display' crop).map g = ((region o display crop).map g).mapError f)
    (h1 : o'.crop = o.crop) (h2 : o'.crop2 = o.crop2) :
    (regions o' display').map (Prod.map g (Option.map g)) =
      ((regions o display).map (Prod.map g (Option.map g))).mapError f := by
  rw [map_regions, map_regions, h1, h2]
  simp only [h]
  cases o.crop2 with
  | none => cases (region o display o.crop).map g <;> rfl
  | some crop2 =>
    dsimp only
    cases (region o display (some (o.crop.getD Rect.zero))).map g with
    | error e => rfl
    | ok a => cases (region o display (some crop2)).map g <;> rfl

end

/-! ## Sizes -/

/-- The sizes of the regions that are asked for, or why one of them cannot be made. -/
def sizes (o : Options K) (display : DisplayState) : Except Fault (Size × Option Size) :=
  (regions o display).map (Prod.map Region.size (Option.map Region.size))

theorem sizes_natural {o : Options K} (h : o.lock.isLocked = true) (display : DisplayState) :
    sizes o display = (sizes o display.natural).mapError Fault.transposed^[display.turns] :=
  map_regions_congr (regionSize_natural h display) rfl rfl

theorem make_of_sizes {o : Options K} {display : DisplayState} {e : Fault}
    (h : sizes o display = .error e) : make o display = .error e := by
  rw [make_eq]
  exact bind_eq_error.2 (.inl (map_eq_error.1 h))

omit [Rotation K] in
theorem inverse_ne_cropOutside (r : Region K) (rect : Rect) (s : Size) :
    r.inverse ≠ .error (.cropOutside rect s) := by
  intro h
  unfold Region.inverse at h
  split at h
  · cases h
  have hm := map_eq_error.1 h
  unfold Affine.inverse at hm
  dsimp only at hm
  split at hm
  · cases hm
  · split at hm <;> cases hm

omit [Rotation K] in
theorem ofRegions_ne_cropOutside (cap : Nat) (display : DisplayState)
    (rs : Region K × Option (Region K)) (rect : Rect) (s : Size) :
    ofRegions cap display rs ≠ .error (.cropOutside rect s) := by
  intro h
  obtain ⟨r1, _ | r2⟩ := rs
  · exact inverse_ne_cropOutside r1 rect s (map_eq_error.1 h)
  · rcases bind_eq_error.1 h with h1 | ⟨_, -, h2⟩
    · exact inverse_ne_cropOutside r1 rect s h1
    · exact inverse_ne_cropOutside r2 rect s (map_eq_error.1 h2)

/-- A crop is rejected by the regions or not at all. -/
theorem make_cropOutside_iff {o : Options K} {display : DisplayState} {rect : Rect} {s : Size} :
    make o display = .error (.cropOutside rect s) ↔ sizes o display = .error (.cropOutside rect s) := by
  refine ⟨fun h => ?_, make_of_sizes⟩
  rw [make_eq] at h
  rcases bind_eq_error.1 h with hr | ⟨rs, -, hp⟩
  · exact map_eq_error.2 hr
  · exact absurd hp (ofRegions_ne_cropOutside _ _ _ _ _)

theorem exists_crop_of_sizes {o : Options K} {display : DisplayState} {rect : Rect} {s : Size}
    (h : sizes o display = .error (.cropOutside rect s)) :
    ∃ crop ∈ o.crops, rect = area display (some crop) ∧ s = display.size := by
  rw [sizes, map_regions] at h
  unfold Options.crops
  cases hc : o.crop2 with
  | none =>
    rw [hc] at h
    obtain ⟨c, hcrop, hrect, hs⟩ := regionSize_eq_cropOutside (map_eq_error.1 h)
    exact ⟨c, Option.mem_toList.2 hcrop, hrect, hs⟩
  | some crop2 =>
    rw [hc] at h
    rcases bind_eq_error.1 h with h1 | ⟨_, -, h2⟩
    · obtain ⟨c, hcrop, hrect, hs⟩ := regionSize_eq_cropOutside h1
      cases hcrop
      exact ⟨_, List.mem_cons_self, hrect, hs⟩
    · obtain ⟨c, hcrop, hrect, hs⟩ := regionSize_eq_cropOutside (map_eq_error.1 h2)
      cases hcrop
      exact ⟨_, List.mem_cons_of_mem _ List.mem_cons_self, hrect, hs⟩

/-- A crop that a locked plan rejects, it rejects however the display is turned. -/
theorem exists_crop_of_natural {o : Options K} (hl : o.lock.isLocked = true) {display : DisplayState}
    {rect : Rect} {s : Size} (h : make o display = .error (.cropOutside rect s)) :
    ∃ crop ∈ o.crops, ∀ display' : DisplayState, display'.natural = display.natural →
      make o display' = .error (.cropOutside (area display' (some crop)) display'.size) := by
  rw [make_cropOutside_iff, sizes_natural hl] at h
  obtain ⟨e, hn, he⟩ := mapError_eq_error.1 h
  obtain ⟨rect', s', rfl⟩ := Fault.exists_cropOutside he
  obtain ⟨crop, hm, hrect, hs⟩ := exists_crop_of_sizes hn
  -- with the display turned back, the axes are those of the crop
  have hcrop : Fault.cropOutside rect' s' = .cropOutside crop display.natural.size := by
    rw [hrect, hs]
    rfl
  refine ⟨crop, hm, fun display' hd => ?_⟩
  rw [make_cropOutside_iff, sizes_natural hl, hd, hn, hcrop, ← hd]
  exact congrArg Except.error (transposed_natural display' crop)

/-! ## Rooms -/

omit [Rotation K] in
theorem room_of_regions {cap : Nat} {display : DisplayState} {rs : Region K × Option (Region K)}
    {p : Plan K} (h : ofRegions cap display rs = .ok p) :
    p.room = Room.ofSizes cap (Prod.map Region.size (Option.map Region.size) rs) := by
  obtain ⟨r1, _ | r2⟩ := rs
  · obtain ⟨inverse, -, rfl⟩ := map_eq_ok.1 h
    simp only [room, videoSize, Layout.arrange, Layout.viewports_single]
    rfl
  · obtain ⟨inverse1, -, h2⟩ := bind_eq_ok.1 h
    obtain ⟨inverse2, -, rfl⟩ := map_eq_ok.1 h2
    simp only [room, videoSize, Layout.arrange, Layout.viewports_pair]
    rfl

/-- A plan takes the room of its regions. -/
theorem room_of_make {o : Options K} {display : DisplayState} {p : Plan K}
    (h : make o display = .ok p) :
    ∃ s, sizes o display = .ok s ∧ p.room = Room.ofSizes o.cap s := by
  rw [make_eq] at h
  obtain ⟨rs, hr, hp⟩ := bind_eq_ok.1 h
  exact ⟨_, map_eq_ok.2 ⟨rs, hr, rfl⟩, room_of_regions hp⟩

theorem room_eq_of_sizes {o o' : Options K} {display display' : DisplayState}
    (hs : ∀ s, sizes o display = .ok s → sizes o' display' = .ok s) (hcap : o.cap = o'.cap)
    {p p' : Plan K} (h : make o display = .ok p) (h' : make o' display' = .ok p') :
    p.room = p'.room := by
  obtain ⟨s, hsizes, hroom⟩ := room_of_make h
  obtain ⟨s', hsizes', hroom'⟩ := room_of_make h'
  cases (hs s hsizes).symm.trans hsizes'
  rw [hroom, hroom', hcap]

/-- A locked plan takes the same room however the display is turned. -/
theorem room_eq_of_natural {o : Options K} (hl : o.lock.isLocked = true)
    {display display' : DisplayState} (hd : display.natural = display'.natural) {p p' : Plan K}
    (h : make o display = .ok p) (h' : make o display' = .ok p') : p.room = p'.room := by
  refine room_eq_of_sizes (fun s hs => ?_) rfl h h'
  rw [sizes_natural hl, mapError_eq_ok] at hs ⊢
  rwa [← hd]

end Plan

end RegionCapture
