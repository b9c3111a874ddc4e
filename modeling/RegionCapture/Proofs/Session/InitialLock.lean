import RegionCapture.Proofs.Region.Areas
import RegionCapture.Proofs.Session.Rooms
/-!
# Taking an initial lock

A session that locks the orientation that its display has first undoes the turns of the display and then
makes them again. So the first preparation plans what an unlocked session plans for a display that it
shows as it stands (`initial_lock`): regions of the same sizes, and over exact numbers the same
transforms too, where a missing transform moves nothing.
-/

namespace RegionCapture

/-! ## Sizes -/

section

variable {K L : Type}

/-- The same options, where the display is shown as it stands. -/
def Options.unlocked (o : Options K) : Options K :=
  { o with lock := .unlocked, orientation := .upright }

def Session.unlocked (s : Session K L) : Session K L := { s with options := s.options.unlocked }

theorem Options.cap_lockOn {o : Options K} {display : DisplayState} (hl : o.lock = .initial)
    (ht : display.turns < 4) : (o.lockOn display).cap = o.unlocked.cap := by
  rw [lockOn_initial hl ht]
  rfl

theorem Orientation.shown_initial {turns : Nat} (h : turns < 4) (s : Size) :
    shown ⟨false, Fin.ofNat 4 (4 - turns)⟩ turns true Size.rotate id s = s := by
  match turns, h with
  | 0, _ | 1, _ | 2, _ | 3, _ => rfl

variable [Coefficient K] [Rotation K] {o : Options K} {display : DisplayState}

namespace Plan

theorem map_regions_lockOn {α : Type} {g : Region K → α} (hl : o.lock = .initial)
    (ht : display.turns < 4) (h : ∀ crop, (region (o.lockOn display) display crop).map g =
      (region o.unlocked display crop).map g) :
    (regions (o.lockOn display) display).map (Prod.map g (Option.map g)) =
      (regions o.unlocked display).map (Prod.map g (Option.map g)) := by
  rw [Options.lockOn_initial hl ht] at h ⊢
  have hregions := map_regions_congr (fun crop => (h crop).trans mapError_id.symm) rfl rfl
  rwa [mapError_id] at hregions

theorem regionSize_lockOn (hl : o.lock = .initial) (ht : display.turns < 4) (crop : Option Rect) :
    regionSize (o.lockOn display) display crop = regionSize o.unlocked display crop := by
  rw [regionSize_eq, regionSize_eq, Options.lockOn_initial hl ht]
  simp only [OrientationLock.isLocked, ne_eq, reduceCtorEq, not_false_eq_true, decide_true,
    Orientation.shown_initial ht]
  rfl

theorem sizes_lockOn (hl : o.lock = .initial) (ht : display.turns < 4) :
    sizes (o.lockOn display) display = sizes o.unlocked display :=
  map_regions_lockOn hl ht (regionSize_lockOn hl ht)

end Plan

end

/-! ## Transforms -/

namespace Affine

theorem identity_compose (m : Affine Rat) : identity.compose m = m := by
  simp [compose, identity]

theorem compose_assoc (m n p : Affine Rat) : (m.compose n).compose p = m.compose (n.compose p) := by
  simp only [compose, mk.injEq]
  refine ⟨?_, ?_, ?_, ?_, ?_, ?_⟩ <;> ring

theorem inverse_identity : (identity : Affine Rat).inverse = .ok identity :=
  inverse_eq_ok_iff.2 ⟨by simp, by simp [adjugate, identity, determinant]⟩

end Affine

namespace Region

/-- The same region, where a missing transform is written out. -/
def filled (r : Region Rat) : Region Rat := ⟨r.size, some r.forward⟩

theorem filled_eq_iff {r r' : Region Rat} :
    r.filled = r'.filled ↔ r.size = r'.size ∧ r.forward = r'.forward := by
  simp [filled]

theorem forward_append_append {m n : Affine Rat} (h : m.compose n = Affine.identity) (r : Region Rat)
    (s s' : Size) : ((r.append n s).append m s').forward = r.forward := by
  rw [forward_append, forward_append, ← Affine.compose_assoc, h, Affine.identity_compose]

/-- Turned back and forth, a region is what it was. -/
theorem map_filled_initial {turns : Nat} (h : turns < 4) (r : Region Rat) :
    (r.orientOn turns true ⟨false, Fin.ofNat 4 (4 - turns)⟩).map filled = .ok r.filled := by
  match turns, h with
  | 0, _ => rfl
  | 1, _ | 2, _ | 3, _ =>
    refine congrArg Except.ok (filled_eq_iff.2 ⟨rfl, forward_append_append ?_ r _ _⟩)
    simp [Affine.compose, Affine.identity]

theorem map_filled_tilt [Rotation Rat] {r r' : Region Rat} (h : r.filled = r'.filled)
    (degrees : Rat) : (r.tilt degrees).map filled = (r'.tilt degrees).map filled := by
  obtain ⟨hs, hf⟩ := filled_eq_iff.1 h
  unfold tilt
  rw [hs]
  split
  · rfl
  split
  · exact congrArg Except.ok h
  · exact congrArg Except.ok (filled_eq_iff.2 ⟨rfl, by rw [forward_append, forward_append, hf]⟩)

theorem inverse_filled (r : Region Rat) :
    r.filled.inverse = r.inverse.map fun back => some (back.getD Affine.identity) := by
  unfold inverse filled forward
  cases r.transform with
  | none => exact congrArg (Except.map some) Affine.inverse_identity
  | some m =>
    dsimp only [Option.getD_some]
    cases m.inverse <;> rfl

end Region

namespace Plan

/-- The same plan, where a missing transform is written out. -/
def filled (p : Plan Rat) : Plan Rat :=
  { p with
    transform1 := some (p.transform1.getD Affine.identity)
    transform2 := some (p.transform2.getD Affine.identity) }

theorem map_filled_ofRegions (cap : Nat) (display : DisplayState)
    (rs : Region Rat × Option (Region Rat)) :
    (ofRegions cap display (Prod.map Region.filled (Option.map Region.filled) rs)).map filled =
      (ofRegions cap display rs).map filled := by
  obtain ⟨r1, r2⟩ := rs
  cases r2 with
  | none =>
    simp only [ofRegions, Prod.map, Option.map_none, Region.inverse_filled]
    cases r1.inverse <;> rfl
  | some r2 =>
    simp only [ofRegions, Prod.map, Option.map_some, Region.inverse_filled]
    cases r1.inverse with
    | error e => rfl
    | ok => cases r2.inverse <;> rfl

variable [Rotation Rat] {o : Options Rat} {display : DisplayState}

theorem map_filled_region (hl : o.lock = .initial) (ht : display.turns < 4) (crop : Option Rect) :
    (region (o.lockOn display) display crop).map Region.filled =
      (region o.unlocked display crop).map Region.filled := by
  rw [region_eq, region_eq, Options.lockOn_initial hl ht]
  cases (cropped display crop : Except Fault (Region Rat)) with
  | error e => rfl
  | ok r =>
    obtain ⟨r₁, hr₁, hr⟩ := map_eq_ok.1 (Region.map_filled_initial ht r)
    have hlocked : OrientationLock.value.isLocked = true := rfl
    have hunlocked : OrientationLock.unlocked.isLocked = false := rfl
    have hup : r.orientOn display.turns false .upright = .ok r := rfl
    simp only [Except.bind, Options.unlocked, hlocked, hunlocked, hup, hr₁]
    exact Region.map_filled_tilt hr o.angle

theorem map_filled_make (hl : o.lock = .initial) (ht : display.turns < 4) :
    (make (o.lockOn display) display).map filled = (make o.unlocked display).map filled := by
  have hregions := map_regions_lockOn hl ht (map_filled_region hl ht)
  have hfilled : ∀ x, (Except.bind x (ofRegions o.unlocked.cap display)).map filled =
      ((x.map (Prod.map Region.filled (Option.map Region.filled))).bind
        (ofRegions o.unlocked.cap display)).map filled := by
    rintro (e | rs)
    · rfl
    · exact (map_filled_ofRegions _ _ _).symm
  rw [make_eq, make_eq, Options.cap_lockOn hl ht, hfilled (regions (o.lockOn display) display),
    hregions, ← hfilled]

end Plan

namespace Session

/-- The first preparation with a lock to the initial orientation makes regions exactly if an unlocked
session makes them, of the same sizes, and the two plans take the same room. Over exact numbers the two
preparations give the same, where a missing transform moves nothing. -/
theorem initial_lock {display : DisplayState} (ht : display.turns < 4) {source : DisplaySource}
    {id : Nat} (ha : source id = .ok (some display)) :
    (∀ {K L : Type} [Coefficient K] [Rotation K] (s : Session K L), s.options.lock = .initial →
      s.options.displayId = id →
        Plan.sizes (s.prepare source).2.options display = Plan.sizes s.unlocked.options display ∧
        (∀ e, Plan.sizes s.unlocked.options display = .error e →
          (s.prepare source).1 = .error e ∧ (s.unlocked.prepare source).1 = .error e) ∧
        ∀ p q, (s.prepare source).1 = .ok p → (s.unlocked.prepare source).1 = .ok q →
          p.room = q.room) ∧
    ∀ {L : Type} [Rotation Rat] (s : Session Rat L), s.options.lock = .initial →
      s.options.displayId = id →
        (s.prepare source).1.map Plan.filled = (s.unlocked.prepare source).1.map Plan.filled := by
  constructor
  · rintro K L _ _ s hl rfl
    obtain ⟨hresult, hoptions⟩ := prepare_of_canLock ha fun _ => ht
    obtain ⟨hresult', -⟩ := prepare_of_canLock (s := s.unlocked) ha nofun
    have hsizes := Plan.sizes_lockOn hl ht
    rw [hresult, hresult', hoptions]
    refine ⟨hsizes, fun e he => ⟨Plan.make_of_sizes (hsizes.trans he), Plan.make_of_sizes he⟩,
      fun p q hp hq => ?_⟩
    exact Plan.room_eq_of_sizes (fun s' hs => hsizes ▸ hs) (Options.cap_lockOn hl ht) hp hq
  · rintro L _ s hl rfl
    obtain ⟨hresult, -⟩ := prepare_of_canLock ha fun _ => ht
    obtain ⟨hresult', -⟩ := prepare_of_canLock (s := s.unlocked) ha nofun
    rw [hresult, hresult']
    exact Plan.map_filled_make hl ht

/-! ## Two crops, tilted -/

/-- Rotations by one angle, either way. -/
local instance tiltedRotation : Rotation Rat :=
  ⟨fun degrees => if degrees < 0 then (4 / 5, -3 / 5) else (4 / 5, 3 / 5)⟩

/-- A session for two crops, tilted, and locked to the orientation that the display has at first. -/
def tiltedSession : Session Rat Rat :=
  ⟨{ (Options.standard : Options Rat) with
      crop := some ⟨0, 0, 8, 12⟩, crop2 := some ⟨2, 4, 7, 16⟩, lock := .initial, angle := 30 }, ⟨false⟩,
    none, none, false, Invalidation.none⟩

theorem prepare_tiltedSession :
    (tiltedSession.prepare turnedDisplay.source).1.toOption.isSome = true ∧
      (tiltedSession.unlocked.prepare turnedDisplay.source).1.toOption.isSome = true := by
  decide +kernel

theorem initial_lock_tilted : turnedDisplay.state.turns < 4 ∧
    turnedDisplay.source 0 = .ok (some turnedDisplay.state) ∧
    tiltedSession.options.lock = .initial ∧ tiltedSession.options.displayId = 0 ∧
    ∃ p q, (tiltedSession.prepare turnedDisplay.source).1 = .ok p ∧
      (tiltedSession.unlocked.prepare turnedDisplay.source).1 = .ok q ∧
      p.room = q.room ∧ p.filled = q.filled := by
  have hturns : turnedDisplay.state.turns < 4 := by decide
  have hsource : turnedDisplay.source 0 = .ok (some turnedDisplay.state) := rfl
  obtain ⟨hrooms, hplans⟩ := initial_lock hturns hsource
  obtain ⟨-, -, hroom⟩ := hrooms tiltedSession rfl rfl
  have hplan := hplans tiltedSession rfl rfl
  obtain ⟨hp, hq⟩ := prepare_tiltedSession
  cases hp' : (tiltedSession.prepare turnedDisplay.source).1 with
  | error e => rw [hp'] at hp; cases hp
  | ok p =>
    cases hq' : (tiltedSession.unlocked.prepare turnedDisplay.source).1 with
    | error e => rw [hq'] at hq; cases hq
    | ok q =>
      rw [hp', hq'] at hplan
      injection hplan with hfilled
      exact ⟨hturns, hsource, rfl, rfl, p, q, rfl, rfl, hroom p q hp' hq', hfilled⟩

end Session

end RegionCapture
