import RegionCapture.Proofs.Layout.Strips
import RegionCapture.Proofs.Session.Runs
/-!
# Where plans come from

A plan that a session holds was made, from some options and some state of a display (`planned_run`).
`Plan.Makes` says what every such plan is.
-/

namespace RegionCapture

namespace Plan

variable {K : Type} [Coefficient K] [Rotation K]

/-- The plans that can be made from options and the state of a display. -/
inductive Makes (o : Options K) (display : DisplayState) : Plan K → Prop
  | single {r inverse} (whole : o.crop2 = none) (region : region o display o.crop = .ok r)
      (back : r.inverse = .ok inverse) :
      Makes o display ⟨display, Layout.arrange (some (input r.size inverse)) none o.cap,
        display.size, inverse, none, false⟩
  | pair {r1 r2 inverse1 inverse2 crop2} (split : o.crop2 = some crop2)
      (region1 : region o display (some (o.crop.getD Rect.zero)) = .ok r1)
      (region2 : region o display (some crop2) = .ok r2) (back1 : r1.inverse = .ok inverse1)
      (back2 : r2.inverse = .ok inverse2) :
      Makes o display ⟨display, Layout.arrange (some (input r1.size.align inverse1))
        (some (input r2.size.align inverse2)) o.cap, display.size, inverse1, inverse2, true⟩

theorem make_cases {o : Options K} {display : DisplayState} {p : Plan K}
    (h : make o display = .ok p) : Makes o display p := by
  unfold make at h
  split at h
  · next hw =>
    obtain ⟨r, hr, h⟩ := bind_eq_ok.1 h
    obtain ⟨inverse, hi, h⟩ := bind_eq_ok.1 h
    cases h
    exact .single hw hr hi
  · next hs =>
    obtain ⟨r1, hr1, h⟩ := bind_eq_ok.1 h
    obtain ⟨r2, hr2, h⟩ := bind_eq_ok.1 h
    obtain ⟨inverse1, hi1, h⟩ := bind_eq_ok.1 h
    obtain ⟨inverse2, hi2, h⟩ := bind_eq_ok.1 h
    cases h
    exact .pair hs hr1 hr2 hi1 hi2

/-- The viewports of a plan that was made share no pixel. -/
theorem Makes.pairwise_apart {o : Options K} {display : DisplayState} {p : Plan K}
    (h : Makes o display p) : p.layout.viewports.Pairwise Viewport.Apart := by
  cases h with
  | single => exact Layout.pairwise_apart_arrange _ _ _
  | pair => exact Layout.pairwise_apart_arrange _ _ _

end Plan

namespace Session

variable {K L β δ : Type} [Coefficient K] [Rotation K]

/-- A plan that the session holds was made. -/
def Planned (s : Session K L) : Prop :=
  ∀ p, s.plan = some p → ∃ o display, Plan.make o display = .ok p

theorem planned_prepare {s : Session K L} (h : s.Planned) (source : DisplaySource) :
    (s.prepare source).2.Planned := by
  have hc := s.prepare_cases source
  generalize source s.options.displayId = answer, s.prepare source = out at hc ⊢
  cases hc with
  | @planned display plan _ made =>
    intro p hp
    cases hp
    exact ⟨_, display, made⟩
  | _ => exact h

variable [Scalar L] [Narrowing K L]

theorem planned_perform {r : Renderer L β} {k : Sink δ} (g : Rig K L β δ) (op : Operation L)
    (h : g.session.Planned) : (g.perform r k op).2.session.Planned := by
  cases op with
  | prepare source => exact planned_prepare h source
  | setMaxSize | invalidate | notify => exact h
  | start =>
    obtain ⟨c, attached, hs⟩ := g.session.start_session r k g.renderer g.sink
    simp only [Rig.perform, hs]
    exact h
  | render frame =>
    obtain ⟨c, hs⟩ := g.session.render_session r frame g.renderer
    simp only [Rig.perform, hs]
    exact h
  | stop =>
    simp only [Rig.perform, stop_fst]
    exact h
  | release =>
    simp only [Rig.perform, release_fst]
    exact h

/-- In every run from a new session, a plan that the session holds was made. -/
theorem planned_run {o : Options K} {c : Capabilities} {s₀ : Session K L} (h₀ : new o c = .ok s₀)
    (r : Renderer L β) (k : Sink δ) (b₀ : β) (d₀ : δ) (l : List (Operation L)) :
    (Rig.run r k ⟨s₀, b₀, d₀⟩ l).session.Planned := by
  refine Rig.run_inv (fun g => g.session.Planned) planned_perform ?_ l
  rw [new_eq h₀]
  intro p hp
  cases hp

end Session

end RegionCapture
