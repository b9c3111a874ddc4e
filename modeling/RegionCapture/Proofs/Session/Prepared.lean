import Mathlib.Data.List.Induction
import RegionCapture.Proofs.Session.Runs
/-!
# The last preparation

A plan that a session holds comes from the last preparation that succeeded (`prepared_run`): it was made
for the display that the source told of, from the options of that moment with an initial lock taken
(`PreparedOn.made`). Options change by another cap or by a lock that is taken, and not otherwise.
-/

namespace RegionCapture

variable {K L β δ : Type} [Coefficient K] [Rotation K] [Scalar L] [Narrowing K L]

namespace Rig

/-- In a run, the last preparation that succeeds: what is done before it and after it, the display that
the source tells of, and the plan that comes out. -/
structure PreparedOn (r : Renderer L β) (k : Sink δ) (g : Rig K L β δ) (l pre : List (Operation L))
    (source : DisplaySource) (display : DisplayState) (plan : Plan K) (post : List (Operation L)) :
    Prop where
  split : l = pre ++ .prepare source :: post
  answered : source (g.run r k pre).session.options.displayId = .ok (some display)
  planned : ((g.run r k pre).perform r k (.prepare source)).1 = .ok (.planned plan)
  last : ∀ source' plan', (.prepare source', .ok (.planned plan')) ∉
    (g.run r k (pre ++ [.prepare source])).replies r k post

variable {r : Renderer L β} {k : Sink δ} {g : Rig K L β δ}

/-- Anything else that is done leaves the last preparation as it was. -/
theorem PreparedOn.snoc {l pre post : List (Operation L)} {source : DisplaySource}
    {display : DisplayState} {plan : Plan K} (h : PreparedOn r k g l pre source display plan post)
    {op : Operation L}
    (ho : ∀ source' plan', op = .prepare source' →
      ((g.run r k l).perform r k op).1 ≠ .ok (.planned plan')) :
    PreparedOn r k g (l ++ [op]) pre source display plan (post ++ [op]) where
  split := by rw [h.split, List.append_assoc, List.cons_append]
  answered := h.answered
  planned := h.planned
  last := by
    intro source' plan' hm
    rw [replies_snoc, List.mem_append, List.mem_singleton, Prod.mk.injEq] at hm
    rcases hm with hm | ⟨hs, hr⟩
    · exact h.last source' plan' hm
    · have hrun : (g.run r k (pre ++ [.prepare source])).run r k post = g.run r k l := by
        rw [h.split, ← run_append, List.append_assoc]
        rfl
      rw [hrun] at hr
      exact ho source' plan' hs.symm hr.symm

end Rig

namespace Session

variable {r : Renderer L β} {k : Sink δ}

/-- Only preparing changes the plan. -/
theorem plan_perform (g : Rig K L β δ) {op : Operation L} (ho : ∀ source, op ≠ .prepare source) :
    (g.perform r k op).2.session.plan = g.session.plan := by
  cases op with
  | prepare source => exact absurd rfl (ho source)
  | setMaxSize | invalidate | notify => rfl
  | start =>
    obtain ⟨c, attached, hs⟩ := g.session.start_session r k g.renderer g.sink
    simp only [Rig.perform, hs]
  | render frame =>
    obtain ⟨c, hs⟩ := g.session.render_session r frame g.renderer
    simp only [Rig.perform, hs]
  | stop => simp only [Rig.perform, stop_fst]
  | release => simp only [Rig.perform, release_fst]

omit [Scalar L] [Narrowing K L] in
/-- A preparation either fails and keeps the plan, or plans for the display that is found. -/
theorem plan_prepare (s : Session K L) (source : DisplaySource) :
    ((∃ e, (s.prepare source).1 = .error e) ∧ (s.prepare source).2.plan = s.plan) ∨
      ∃ display plan, source s.options.displayId = .ok (some display) ∧
        (s.prepare source).1 = .ok plan ∧ (s.prepare source).2.plan = some plan ∧
        Plan.make (s.options.lockOn display) display = .ok plan := by
  have hc := s.prepare_cases source
  generalize source s.options.displayId = answer, s.prepare source = out at hc ⊢
  cases hc with
  | @planned display plan _ made => exact .inr ⟨display, plan, rfl, rfl, rfl, made⟩
  | _ => exact .inl ⟨⟨_, rfl⟩, rfl⟩

/-- A plan that a session holds comes from the last preparation that succeeded. -/
theorem prepared_run {g : Rig K L β δ} (hg : g.session.plan = none) (l : List (Operation L)) :
    ∀ plan, (g.run r k l).session.plan = some plan → ∃ pre source display post,
      g.PreparedOn r k l pre source display plan post := by
  induction l using List.reverseRecOn with
  | nil =>
    intro plan hp
    rw [Rig.run, List.foldl_nil, hg] at hp
    cases hp
  | append_singleton l op ih =>
    intro plan hp
    rw [Rig.run_snoc] at hp
    by_cases ho : ∃ source, op = .prepare source
    · obtain ⟨source, rfl⟩ := ho
      rcases plan_prepare (g.run r k l).session source with
        ⟨⟨e, he⟩, hsame⟩ | ⟨display, plan', ha, hok, hplan, -⟩
      · obtain ⟨pre, source', display, post, h⟩ := ih plan (hsame ▸ hp)
        refine ⟨pre, source', display, post ++ [.prepare source], h.snoc fun _ plan' _ hr => ?_⟩
        simp only [Rig.perform, he] at hr
        cases hr
      · cases hplan.symm.trans hp
        refine ⟨l, source, display, [], rfl, ha, ?_, fun _ _ => List.not_mem_nil⟩
        simp only [Rig.perform, hok]
        rfl
    · have ho' : ∀ source, op ≠ .prepare source := fun source h => ho ⟨source, h⟩
      rw [plan_perform _ ho'] at hp
      obtain ⟨pre, source, display, post, h⟩ := ih plan hp
      exact ⟨pre, source, display, post ++ [op], h.snoc fun source' _ h' _ => ho' source' h'⟩

/-- What the last preparation plans is made from the options of that moment. -/
theorem made_of_preparedOn {g : Rig K L β δ} {l pre post : List (Operation L)}
    {source : DisplaySource} {display : DisplayState} {plan : Plan K}
    (h : g.PreparedOn r k l pre source display plan post) :
    Plan.make ((g.run r k pre).session.options.lockOn display) display = .ok plan := by
  have hp := h.planned
  simp only [Rig.perform] at hp
  rcases plan_prepare (g.run r k pre).session source with
    ⟨⟨e, he⟩, -⟩ | ⟨display', plan', ha, hok, -, made⟩
  · rw [he] at hp
    cases hp
  · rw [hok] at hp
    cases hp
    cases ha.symm.trans h.answered
    exact made

/-! ## Options -/

/-- The options are the same but for the cap and the orientation. -/
def SameView (o o' : Options K) : Prop :=
  ∃ n lock orientation, o' = { o with maxSize := n, lock := lock, orientation := orientation }

omit [Coefficient K] [Rotation K] in
theorem SameView.lockOn {o o' : Options K} (h : SameView o o') (display : DisplayState) :
    SameView o (o'.lockOn display) := by
  obtain ⟨n, lock, orientation, rfl⟩ := h
  unfold Options.lockOn
  split <;> exact ⟨_, _, _, rfl⟩

theorem sameView_perform (g : Rig K L β δ) (op : Operation L) {o : Options K}
    (h : SameView o g.session.options) : SameView o (g.perform r k op).2.session.options := by
  cases op with
  | prepare source =>
    have hc := g.session.prepare_cases source
    simp only [Rig.perform]
    generalize source g.session.options.displayId = answer, g.session.prepare source = out at hc ⊢
    cases hc with
    | unanswered | unknown => exact h
    | unlocked =>
      obtain ⟨n, lock, orientation, ho⟩ := h
      exact ⟨n, .value, orientation, by rw [ho]⟩
    | unplanned | planned => exact h.lockOn _
  | setMaxSize n =>
    obtain ⟨_, lock, orientation, ho⟩ := h
    exact ⟨n, lock, orientation, by simp only [Rig.perform, setMaxSize, ho]⟩
  | invalidate | notify => exact h
  | start =>
    obtain ⟨c, attached, hs⟩ := g.session.start_session r k g.renderer g.sink
    simp only [Rig.perform, hs]
    exact h
  | render frame =>
    obtain ⟨c, hs⟩ := g.session.render_session r frame g.renderer
    simp only [Rig.perform, hs]
    exact h
  | stop =>
    simp only [Rig.perform, stop_fst]
    exact h
  | release =>
    simp only [Rig.perform, release_fst]
    exact h

/-- Whatever is done, options change only by another cap or a lock that is taken. -/
theorem sameView_run (g : Rig K L β δ) (l : List (Operation L)) :
    SameView g.session.options (g.run r k l).session.options :=
  Rig.run_inv (fun g' => SameView g.session.options g'.session.options)
    (fun g' op => sameView_perform g' op) ⟨_, _, _, rfl⟩ l

/-- In every run from a new session, a plan that the session holds was made from options that are the
same but for the cap and the orientation. -/
theorem made_run {o : Options K} {c : Capabilities} {s₀ : Session K L} (h₀ : new o c = .ok s₀)
    {b₀ : β} {d₀ : δ} {l : List (Operation L)} {plan : Plan K}
    (hp : (Rig.run r k ⟨s₀, b₀, d₀⟩ l).session.plan = some plan) :
    ∃ o' display, SameView o o' ∧ Plan.make o' display = .ok plan := by
  have hnew := new_eq h₀
  have hidle : s₀.plan = none := by rw [hnew]
  obtain ⟨pre, source, display, post, hprep⟩ :=
    prepared_run (g := ⟨s₀, b₀, d₀⟩) hidle l plan hp
  have hview := sameView_run (r := r) (k := k) ⟨s₀, b₀, d₀⟩ pre
  rw [hnew] at hview
  exact ⟨_, display, hview.lockOn display, hnew ▸ made_of_preparedOn hprep⟩

end Session

end RegionCapture
