import Mathlib.Data.List.Induction
import RegionCapture.Proofs.Program.Regions
import RegionCapture.Proofs.Rasterizer.Picture
import RegionCapture.Proofs.Rasterizer.Requests
import RegionCapture.Proofs.Session.Planned
/-!
# What a started session shows

A started session renders a frame into a target of the size planned, every region in its own
viewport and nothing around them, whatever was rendered, planned or started before (`render_shows`).
What carries this through a run is `Ready`: the compositor is that of the plan started on, its program
is there, and the target has the size planned. What the target shows, and what input and matrices are
set, does not matter, as rendering sets all of it anew. That the target has all the pixels of its size is
kept by the rasterizer itself (`Rasterizer.Sound`).
-/

namespace RegionCapture

variable {K L δ : Type}

/-- Whatever is asked of a rasterizer, nothing that is set dangles. -/
theorem Rasterizer.keeps_sound [Coordinate L] :
    (renderer : Renderer L (Rasterizer L)).Keeps Sound where
  createProgram {p b _ b'} h hb := by
    have hs : Sound (renderer.createProgram p b).2 := hb.request (.createProgram p)
    rwa [h] at hs
  deleteProgram id _ hb := hb.delete id
  perform {c b _ b'} h hb := by
    have hs : Sound (renderer.perform c b).2 := hb.request (.command c)
    rwa [h] at hs

namespace Session

/-! ## Ready sessions -/

/-- The session is started on a layout, nothing that was drawn since has failed, and the rasterizer is
set up for it. -/
structure Ready [Coordinate L] [Narrowing K L] (s : Session K L) (l : Layout K)
    (b : Rasterizer L) : Prop where
  compositor : ∃ id, s.compositor = some (Compositor.made l id) ∧ id ∈ b.programs
  target : ∃ t, b.target = some t ∧ t.size = l.combined

section

variable [Coordinate L] [Narrowing K L] {s : Session K L} {l : Layout K} {b : Rasterizer L}

/-- A ready session renders a frame that has pixels: the regions are painted into the target, once it is
cleared. The session stays as it was, and ready. -/
theorem Ready.render (h : s.Ready l b) (frame : SourceFrame L)
    (hf : frame.texture.size.isEmpty = false) :
    ∃ b' : Rasterizer L, ∃ t : Canvas,
      s.render Rasterizer.renderer frame b = (.ok (), s, b') ∧ t.size = l.combined ∧
      b'.target = some (Rasterizer.painted frame (Compositor.new l : Compositor L).draws
        (t.fill .transparent)) ∧
      s.Ready l b' := by
  obtain ⟨id, hc, hid⟩ := h.compositor
  obtain ⟨t, ht, hs⟩ := h.target
  have hclear := Rasterizer.perform_clearTarget .transparent ht
  obtain ⟨b', hd, ht', hp⟩ := Rasterizer.draw_ready frame
    (s := { b with target := some (t.fill .transparent) })
    (c := Compositor.made l id) rfl rfl hid rfl hf
  refine ⟨b', t, ?_, hs, ht', ⟨⟨id, hc, by rw [hp]; exact hid⟩, _, ht', ?_⟩⟩
  · unfold Session.render
    rw [hc]
    simp only [hclear, hd]
    rw [← hc]
  · -- neither clearing nor painting changes the size
    rw [Rasterizer.size_painted, Canvas.size_fill]
    exact hs

/-- A ready session does not render a frame without pixels. -/
theorem Ready.render_empty (h : s.Ready l b) (frame : SourceFrame L)
    (hf : frame.texture.size.isEmpty = true) :
    (s.render Rasterizer.renderer frame b).1 = .error .emptyTexture := by
  obtain ⟨id, hc, hid⟩ := h.compositor
  obtain ⟨t, ht, hs⟩ := h.target
  have hclear := Rasterizer.perform_clearTarget .transparent ht
  have hd := Rasterizer.draw_empty frame
    (s := { b with target := some (t.fill .transparent) })
    (c := Compositor.made l id) rfl rfl hid hf
  unfold Session.render
  rw [hc]
  simp only [hclear, hd]

/-- A session whose plan has an output starts, if the sink takes the display. -/
theorem start_ok [Scalar K] {k : Sink δ} {b : Rasterizer L} {d : δ} {plan : Plan K}
    {virtual : Option Nat} (hp : s.plan = some plan) (hv : plan.videoSize.isEmpty = false)
    (ha : (k.attach plan.display plan.inputSize (s.release k d).2).1 = .ok virtual) :
    (s.start Rasterizer.renderer k b d).result = .ok (announcement plan virtual) := by
  have hc := s.start_cases Rasterizer.renderer k b d
  generalize s.start Rasterizer.renderer k b d = out at hc ⊢
  -- the target and the program can be had in any state of the rasterizer
  cases hc with
  | unprepared hn => rw [hn] at hp; cases hp
  | empty hp' he => rw [hp'] at hp; cases hp; rw [he] at hv; cases hv
  | noTarget hp' _ ht =>
    have hok := Rasterizer.perform_ensureTarget hv (s.stop Rasterizer.renderer b).2
    rw [hp'] at hp
    cases hp
    rw [ht] at hok
    cases hok
  | noProgram _ _ _ hcreate =>
    have hok := Rasterizer.createProgram_of_resolve (L := L) Program.resolve_regions
    rw [Prod.ext_iff, hok] at hcreate
    cases hcreate.1
  | noDisplay hp' _ _ _ hattach =>
    rw [hp'] at hp
    cases hp
    rw [hattach] at ha
    cases ha
  | started hp' _ _ _ hattach =>
    rw [hp'] at hp
    cases hp
    rw [hattach] at ha
    cases ha
    rfl

/-- A session that starts is ready for the layout of its plan. -/
theorem ready_of_start [Scalar K] {k : Sink δ} {d : δ} {a : Announcement K}
    (h : (s.start Rasterizer.renderer k b d).result = .ok a) : ∃ plan, s.plan = some plan ∧
      (s.start Rasterizer.renderer k b d).session.Ready plan.layout
        (s.start Rasterizer.renderer k b d).renderer := by
  have hc := s.start_cases Rasterizer.renderer k b d
  generalize s.start Rasterizer.renderer k b d = out at h hc ⊢
  cases hc with
  | @started plan id _ b₁ b₂ _ hp _ target program _ =>
    obtain ⟨t, ht, hs⟩ := Rasterizer.target_of_ensureTarget target
    obtain ⟨hid, hb⟩ := Rasterizer.createProgram_ok program
    exact ⟨plan, hp, ⟨id, rfl, hid⟩, t, hb.trans ht, hs⟩
  | _ => cases h

end

/-! ## Runs -/

variable [Coefficient K] [Rotation K] [Coordinate L] [Narrowing K L] {k : Sink δ}
variable {g : Rig K L (Rasterizer L) δ} {op : Operation L}

/-- A session whose plan has an output is started by a start, if the sink takes the display, and is ready
for the layout of the plan then. -/
theorem ready_start (g : Rig K L (Rasterizer L) δ) {plan : Plan K} {virtual : Option Nat}
    (hp : g.session.plan = some plan) (hv : plan.videoSize.isEmpty = false)
    (ha : (k.attach plan.display plan.inputSize (g.session.release k g.sink).2).1 = .ok virtual) :
    (g.perform Rasterizer.renderer k .start).2.session.isStarted = true ∧
      (g.perform Rasterizer.renderer k .start).2.session.Ready plan.layout
        (g.perform Rasterizer.renderer k .start).2.renderer := by
  have hok := start_ok (b := g.renderer) hp hv ha
  obtain ⟨plan', hp', hready⟩ := ready_of_start hok
  cases hp'.symm.trans hp
  refine ⟨?_, hready⟩
  rw [Rig.perform, isStarted_start, hok]
  rfl

/-- Nothing but a start starts a session. -/
theorem isStarted_of_perform (ho : op ≠ .start)
    (hs : (g.perform Rasterizer.renderer k op).2.session.isStarted = true) :
    g.session.isStarted = true := by
  cases op with
  | prepare source =>
    obtain ⟨o, p, i, he⟩ := g.session.prepare_session source
    simp only [Rig.perform, he] at hs
    exact hs
  | setMaxSize | invalidate | notify => exact hs
  | start => exact absurd rfl ho
  | render frame =>
    simp only [Rig.perform, isStarted_render] at hs
    exact hs
  | stop =>
    simp only [Rig.perform, stop_fst] at hs
    cases hs
  | release =>
    simp only [Rig.perform, release_fst] at hs
    exact hs

/-- A ready session stays ready, unless it is stopped, started again, or fails to render. -/
theorem Ready.perform {l : Layout K} (h : g.session.Ready l g.renderer) (ho : op ≠ .start)
    (hs : (g.perform Rasterizer.renderer k op).2.session.isStarted = true)
    (hr : ∀ frame e, op = .render frame → (g.perform Rasterizer.renderer k op).1 ≠ .error e) :
    (g.perform Rasterizer.renderer k op).2.session.Ready l
      (g.perform Rasterizer.renderer k op).2.renderer := by
  cases op with
  | prepare source =>
    obtain ⟨o, p, i, he⟩ := g.session.prepare_session source
    simp only [Rig.perform, he]
    exact ⟨h.compositor, h.target⟩
  | setMaxSize | invalidate | notify => exact ⟨h.compositor, h.target⟩
  | start => exact absurd rfl ho
  | render frame =>
    cases hf : frame.texture.size.isEmpty with
    | false =>
      obtain ⟨b', _, he, -, -, hb⟩ := h.render frame hf
      simp only [Rig.perform, he]
      exact hb
    | true =>
      have he := h.render_empty frame hf
      refine absurd ?_ (hr frame .emptyTexture rfl)
      simp only [Rig.perform, he]
      rfl
  | stop =>
    simp only [Rig.perform, stop_fst] at hs
    cases hs
  | release =>
    simp only [Rig.perform, release_fst]
    exact ⟨h.compositor, h.target⟩

/-- A ready session renders a frame that has pixels. The target shows the frame then, if the bytes of the
output can be counted. -/
theorem Ready.shows {l : Layout K} (h : g.session.Ready l g.renderer) (hb : g.renderer.Sound)
    (ha : l.viewports.Pairwise Viewport.Apart) {frame : SourceFrame L}
    (hf : frame.texture.size.isEmpty = false) :
    (g.perform Rasterizer.renderer k (.render frame)).1 = .ok .done ∧
      (l.combined.Countable → ∃ t : Frame,
        (g.perform Rasterizer.renderer k (.render frame)).2.renderer.target = some t.toCanvas ∧
        l.Shows frame t) := by
  obtain ⟨b', t, hr, hs, ht, -⟩ := h.render frame hf
  have hb' : b'.Sound := by
    have := Rasterizer.keeps_sound.render hb frame g.session
    rwa [hr] at this
  rw [Rig.perform, hr]
  refine ⟨rfl, fun hc => ?_⟩
  -- neither clearing nor painting changes the size
  have hwhole := hb'.whole ht (by rwa [Rasterizer.size_painted, Canvas.size_fill, hs])
  exact ⟨⟨_, hwhole⟩, ht, Layout.shows_painted ha hs rfl⟩

/-- No rendering fails after the last start. -/
def Untroubled (k : Sink δ) (g : Rig K L (Rasterizer L) δ) (pre post : List (Operation L)) : Prop :=
  ∀ frame e, (.render frame, .error e) ∉
    (g.run Rasterizer.renderer k (pre ++ [.start])).replies Rasterizer.renderer k post

/-- A session that is started was started on some plan, and is ready for its layout unless a rendering
has failed since. -/
theorem ready_run (hg : g.session.isStarted = false) (l : List (Operation L)) :
    (g.run Rasterizer.renderer k l).session.isStarted = true →
      ∃ pre plan post, g.StartedOn Rasterizer.renderer k l pre plan post ∧
        (Untroubled k g pre post → (g.run Rasterizer.renderer k l).session.Ready plan.layout
          (g.run Rasterizer.renderer k l).renderer) := by
  induction l using List.reverseRecOn with
  | nil =>
    intro hs
    rw [Rig.run, List.foldl_nil, hg] at hs
    cases hs
  | append_singleton l op ih =>
    intro hs
    rw [Rig.run_snoc] at hs ⊢
    by_cases ho : op = .start
    · subst ho
      generalize hg' : g.run Rasterizer.renderer k l = g' at hs ⊢
      cases hr : (g'.session.start Rasterizer.renderer k g'.renderer g'.sink).result with
      | error e =>
        rw [Rig.perform, isStarted_start, hr] at hs
        cases hs
      | ok a =>
        obtain ⟨plan, hp, hready⟩ := ready_of_start hr
        refine ⟨l, plan, [], ⟨rfl, hg' ▸ hp, ⟨.announced a, ?_⟩, fun _ => List.not_mem_nil⟩, fun _ => hready⟩
        rw [hg', Rig.perform, hr]
        rfl
    · obtain ⟨pre, plan, post, hl, hready⟩ := ih (isStarted_of_perform ho hs)
      refine ⟨pre, plan, post ++ [op], hl.snoc ho, fun hu => ?_⟩
      -- the replies since the last start are those before this operation, and its own
      have hu' : ∀ frame e, (.render frame, .error e) ∉
          (g.run Rasterizer.renderer k (pre ++ [.start])).replies Rasterizer.renderer k post ++
            [(op, ((g.run Rasterizer.renderer k l).perform Rasterizer.renderer k op).1)] := by
        rw [← hl.run_eq, ← Rig.replies_snoc]
        exact hu
      simp only [List.mem_append, not_or, List.mem_singleton, Prod.mk.injEq, not_and] at hu'
      exact (hready fun frame e => (hu' frame e).1).perform ho hs
        fun frame e he herr => (hu' frame e).2 he.symm herr.symm

/-- In every run from a new session on a rasterizer of its own: if the session is started, then it was
last started on some plan, and unless a rendering has failed since then, rendering a frame that has
pixels succeeds, and the target shows that frame through the layout of that plan, as long as its bytes
can be counted. -/
theorem render_shows {o : Options K} {c : Capabilities} {s₀ : Session K L} (h₀ : new o c = .ok s₀)
    (k : Sink δ) (d₀ : δ) (l : List (Operation L)) :
    let g₀ : Rig K L (Rasterizer L) δ := ⟨s₀, Rasterizer.new, d₀⟩
    let g := g₀.run Rasterizer.renderer k l
    g.session.isStarted = true →
      ∃ pre plan post, g₀.StartedOn Rasterizer.renderer k l pre plan post ∧
        (Untroubled k g₀ pre post → ∀ frame : SourceFrame L, frame.texture.size.isEmpty = false →
          (g.perform Rasterizer.renderer k (.render frame)).1 = .ok .done ∧
          (plan.videoSize.Countable → ∃ t : Frame,
            (g.perform Rasterizer.renderer k (.render frame)).2.renderer.target = some t.toCanvas ∧
            plan.layout.Shows frame t)) := by
  intro g₀ g hs
  have hn : s₀.isStarted = false := by
    rw [new_eq h₀]
    rfl
  obtain ⟨pre, plan, post, hl, hready⟩ := ready_run hn l hs
  refine ⟨pre, plan, post, hl, fun hu frame hf => ?_⟩
  obtain ⟨o', display, hmade⟩ := planned_run h₀ Rasterizer.renderer k Rasterizer.new d₀ pre plan hl.planned
  exact (hready hu).shows (Rasterizer.keeps_sound.run .new l) (Plan.make_cases hmade).pairwise_apart hf

/-! ## A capture started once -/

/-- A white frame as large as the small display. -/
def whiteFrame : SourceFrame Float32 := .upright (Frame.ofFn 16 8 fun _ _ => ⟨255, 255, 255, 255⟩)

/-- The small display with a session and a rasterizer that nothing has been done with. -/
def smallRig : Rig Float Float32 (Rasterizer Float32) FixedDisplay :=
  ⟨untouched, Rasterizer.new, smallDisplay⟩

/-- What is left of it after some operations. -/
def smallRun (l : List (Operation Float32)) : Rig Float Float32 (Rasterizer Float32) FixedDisplay :=
  smallRig.run Rasterizer.renderer FixedDisplay.sink l

theorem plan_smallRun : (smallRun [.prepare smallDisplay.source]).session.plan.map (fun p =>
    (p.videoSize, (FixedDisplay.sink.attach p.display p.inputSize smallDisplay).1)) =
      some (⟨16, 8⟩, .ok none) := rfl

theorem isStarted_smallRun :
    (smallRun [.prepare smallDisplay.source, .start]).session.isStarted = true := by
  obtain ⟨plan, hp, hv⟩ := Option.map_eq_some_iff.1 plan_smallRun
  rw [Prod.mk.injEq] at hv
  exact (ready_start (smallRun [.prepare smallDisplay.source]) hp (by rw [hv.1]; rfl) hv.2).1

theorem render_shows_white :
    (smallRun [.prepare smallDisplay.source, .start]).session.isStarted = true ∧
      whiteFrame.texture.size.isEmpty = false ∧
      ∃ plan, ∃ t : Frame, (smallRun [.prepare smallDisplay.source]).session.plan = some plan ∧
        plan.videoSize.Countable ∧
        ((smallRun [.prepare smallDisplay.source, .start]).perform Rasterizer.renderer
          FixedDisplay.sink (.render whiteFrame)).2.renderer.target = some t.toCanvas ∧
        plan.layout.Shows whiteFrame t := by
  obtain ⟨pre, plan, post, hl, hshows⟩ := render_shows new_untouched FixedDisplay.sink smallDisplay
    [.prepare smallDisplay.source, .start] isStarted_smallRun
  -- the only start is the last operation
  have hsplit := hl.split
  rcases pre with _ | ⟨x, _ | ⟨y, pre⟩⟩
  · simp at hsplit
  · simp only [List.cons_append, List.nil_append, List.cons.injEq, true_and] at hsplit
    obtain ⟨rfl, rfl⟩ := hsplit
    have hv : plan.videoSize.Countable := by
      obtain ⟨plan', hp, hv⟩ := Option.map_eq_some_iff.1 plan_smallRun
      cases hl.planned.symm.trans hp
      rw [Prod.mk.injEq] at hv
      rw [hv.1]
      decide
    obtain ⟨t, ht, hshow⟩ := (hshows (fun _ _ => List.not_mem_nil) whiteFrame rfl).2 hv
    refine ⟨isStarted_smallRun, rfl, plan, t, hl.planned, hv, ?_, hshow⟩
    unfold smallRun smallRig
    exact ht
  · simp at hsplit

end Session

end RegionCapture
