import Mathlib.Algebra.Field.Rat
import RegionCapture.Proofs.Layout.Tiling
import RegionCapture.Proofs.Session.Places
import RegionCapture.Proofs.Session.Prepared
import RegionCapture.Rasterizer
/-!
# Plans do not contradict themselves

A plan says the same in several places: whether there are two regions, how large the display is, how each
region goes back to the source, how large it is and where it stands. `Plan.Consistent` says how these
agree, and `plan_consistent` that they do in every plan that a session ever holds.
-/

namespace RegionCapture

variable {K L β δ : Type}

namespace Plan

/-- A place as large as a region, but for edges rounded up to multiples of 8. -/
structure Stretches (r : Region K) (p : Placement K) : Prop where
  size : p.size = r.size.align
  aligned : 8 ∣ p.size.width ∧ 8 ∣ p.size.height
  width : r.size.width ≤ p.size.width ∧ p.size.width < r.size.width + 8
  height : r.size.height ≤ p.size.height ∧ p.size.height < r.size.height + 8
  zero : (p.size.width = 0 ↔ r.size.width = 0) ∧ (p.size.height = 0 ↔ r.size.height = 0)

theorem stretches_of_align {r : Region K} {p : Placement K} (h : p.size = r.size.align) :
    Stretches r p where
  size := h
  aligned := h ▸ Layout.eight_dvd_align r.size
  width := h ▸ ⟨le_roundUp8 _, roundUp8_lt _⟩
  height := h ▸ ⟨le_roundUp8 _, roundUp8_lt _⟩
  zero := h ▸ ⟨roundUp8_eq_zero_iff, roundUp8_eq_zero_iff⟩

variable [Coefficient K] [Rotation K]

/-- What a plan made from options says in one place agrees with what it says in another. -/
structure Consistent (o : Options K) (plan : Plan K) : Prop where
  dual : plan.dual = o.isDual
  surface : plan.inputSize = plan.display.size
  /-- A single region takes the whole output, if there is any. -/
  single : plan.dual = false → plan.layout.region2 = none ∧ plan.transform2 = none ∧
    (plan.layout.viewports = [] ∨
      plan.layout.viewports = [⟨0, 0, plan.videoSize.width, plan.videoSize.height⟩])
  /-- Two regions keep their own sizes, and tile the output. -/
  pair : plan.dual = true → plan.layout.Tiled ∧ ∃ r1 r2 p1 p2,
    region o plan.display (some (o.crop.getD Rect.zero)) = .ok r1 ∧
    region o plan.display o.crop2 = .ok r2 ∧
    plan.layout.region1 = some p1 ∧ plan.layout.region2 = some p2 ∧
    Stretches r1 p1 ∧ Stretches r2 p2
  inverse1 : ∀ p, plan.layout.region1 = some p → p.inverse = plan.transform1.getD Affine.identity
  inverse2 : ∀ p, plan.layout.region2 = some p → p.inverse = plan.transform2.getD Affine.identity

theorem Makes.consistent {o : Options K} {display : DisplayState} {plan : Plan K}
    (h : Makes o display plan) : Consistent o plan := by
  cases h with
  | @single r inverse whole =>
    refine ⟨by rw [Options.isDual, whole]; rfl, rfl, fun _ => ⟨rfl, rfl, ?_⟩, ?_, ?_, ?_⟩
    · dsimp only [videoSize, Layout.arrange]
      rw [Layout.viewports_single_eq, Layout.strip]
      split
      · exact .inl rfl
      · exact .inr rfl
    · rintro ⟨⟩
    · rintro p ⟨⟩
      rfl
    · rintro p ⟨⟩
  | pair split region1 region2 =>
    refine ⟨by rw [Options.isDual, split]; rfl, rfl, ?_, fun _ => ⟨?_, _, _, _, _, region1,
      split ▸ region2, rfl, rfl, stretches_of_align rfl, stretches_of_align rfl⟩, ?_, ?_⟩
    · rintro ⟨⟩
    · exact Layout.tiled_pair (Size.align_align _) (Size.align_align _)
    · rintro p ⟨⟩
      rfl
    · rintro p ⟨⟩
      rfl

end Plan

namespace Session

variable [Coefficient K] [Rotation K] [Scalar L] [Narrowing K L]

omit [Coefficient K] [Rotation K] in
theorem SameView.isDual {o o' : Options K} (h : SameView o o') : o'.isDual = o.isDual := by
  obtain ⟨n, lock, orientation, rfl⟩ := h
  rfl

/-- In every run from a new session, a plan that the session holds is the one last prepared, for the
display found then and from the options of that moment; it does not contradict itself, and has two regions
exactly if the session's options have a second crop. -/
theorem plan_consistent {o : Options K} {c : Capabilities} {s₀ : Session K L}
    (h₀ : new o c = .ok s₀) (r : Renderer L β) (k : Sink δ) (b₀ : β) (d₀ : δ)
    (l : List (Operation L)) :
    let g₀ : Rig K L β δ := ⟨s₀, b₀, d₀⟩
    let g := g₀.run r k l
    ∀ plan, g.session.plan = some plan →
      plan.dual = g.session.options.isDual ∧
      ∃ pre source display post, g₀.PreparedOn r k l pre source display plan post ∧
        plan.display = display ∧
        plan.Consistent ((g₀.run r k pre).session.options.lockOn display) := by
  intro g₀ g plan hp
  have hidle : g₀.session.plan = none := by
    show s₀.plan = none
    rw [new_eq h₀]
  obtain ⟨pre, source, display, post, hprep⟩ := prepared_run hidle l plan hp
  have hmade := Plan.make_cases (made_of_preparedOn hprep)
  refine ⟨?_, pre, source, display, post, hprep, hmade.display_eq.1, hmade.consistent⟩
  -- neither locks nor caps change which crops there are
  have hpre := sameView_run (r := r) (k := k) g₀ pre
  rw [hmade.consistent.dual, (hpre.lockOn display).isDual, (sameView_run g₀ l).isDual]

/-! ## Two parts of odd sizes -/

open scoped Straight

/-- A strip of 5 columns at the left of the small display, and a part of 11 by 7 pixels at its right. -/
def unevenOptions : Options Rat :=
  { Options.standard with crop := some ⟨0, 0, 5, 8⟩, crop2 := some ⟨5, 0, 16, 7⟩ }

/-- A session for the two parts that nothing has been done with. -/
def unevenSession : Session Rat Rat :=
  ⟨unevenOptions, ⟨false⟩, none, none, false, Invalidation.none⟩

/-- The session as prepared for the small display, on a rasterizer. -/
def unevenPrepared : Rig Rat Rat (Rasterizer Rat) FixedDisplay :=
  Rig.run Rasterizer.renderer FixedDisplay.sink ⟨unevenSession, Rasterizer.new, smallDisplay⟩
    [.prepare smallDisplay.source]

theorem plan_consistent_uneven : ∃ plan, unevenPrepared.session.plan = some plan ∧
    plan.layout.combined = ⟨24, 8⟩ ∧ plan.dual = true ∧ plan.Consistent unevenOptions := by
  have hplan : unevenPrepared.session.plan.map (·.layout.combined) = some ⟨24, 8⟩ := by
    decide +kernel
  obtain ⟨plan, hp, hc⟩ := Option.map_eq_some_iff.1 hplan
  obtain ⟨-, pre, source, display, post, hprep, -, h⟩ :=
    plan_consistent (rfl : new unevenOptions ⟨false⟩ = .ok unevenSession) Rasterizer.renderer
      FixedDisplay.sink Rasterizer.new smallDisplay [.prepare smallDisplay.source] plan hp
  -- the only preparation is the first operation
  have hpre : pre = [] := by
    rcases pre with _ | ⟨op, pre⟩
    · rfl
    · simpa using congrArg List.length hprep.split
  subst hpre
  exact ⟨plan, hp, hc, h.dual, h⟩

end Session

end RegionCapture
