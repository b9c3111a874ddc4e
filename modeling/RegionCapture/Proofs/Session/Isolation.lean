import RegionCapture.Proofs.Session.Pointers
import RegionCapture.Proofs.Session.Portrait
/-!
# Regions do not influence each other

Two captures of one display whose options differ in the crop of one region show the same in the other
region, wherever its viewport stands (`regions_isolated`). A place in a layout depends on its own crop
alone, but for the column that the second one begins at (`Makes.region1_eq`, `Makes.region2_eq`), and
what is shown there is a function of the place and the frame.
-/

namespace RegionCapture

variable {K L δ : Type}

/-! ## Renderings that succeed -/

namespace Session

section

variable [Coordinate L] [Narrowing K L]

/-- The session is ready for a layout, or it is not started, or it has failed to draw and draws no
more. -/
def Settled (s : Session K L) (l : Layout K) (b : Rasterizer L) : Prop :=
  s.Ready l b ∨ s.compositor = none ∨ ∃ c, s.compositor = some c ∧ c.phase = .drawing

variable {s : Session K L} {l : Layout K} {b : Rasterizer L}

theorem Ready.spoiled (h : s.Ready l b) {frame : SourceFrame L} {e : Fault}
    (hr : (s.render Rasterizer.renderer frame b).1 = .error e) :
    ∃ c, (s.render Rasterizer.renderer frame b).2.1.compositor = some c ∧ c.phase = .drawing := by
  obtain ⟨id, hc, -⟩ := h.compositor
  obtain ⟨t, ht, -⟩ := h.target
  have hcases := s.render_cases Rasterizer.renderer frame b
  generalize s.render Rasterizer.renderer frame b = out at hr hcases ⊢
  cases hcases with
  | unstarted hs => rw [hc] at hs; cases hs
  | uncleared _ hclear =>
    rw [Rasterizer.perform_clearTarget .transparent ht] at hclear
    cases hclear
  | cleared hs _ hd =>
    cases hs.symm.trans hc
    cases hd with
    | spoiled hp => cases hp
    | unready _ hp => cases hp rfl
    | drawn => cases hr
    | failed => exact ⟨_, rfl, rfl⟩

omit [Narrowing K L] in
theorem render_spoiled {c : Compositor L} (hc : s.compositor = some c) (hp : c.phase = .drawing)
    (frame : SourceFrame L) : (∃ e, (s.render Rasterizer.renderer frame b).1 = .error e) ∧
      (s.render Rasterizer.renderer frame b).2.1.compositor = some c := by
  have hcases := s.render_cases Rasterizer.renderer frame b
  generalize s.render Rasterizer.renderer frame b = out at hcases ⊢
  cases hcases with
  | unstarted => exact ⟨⟨_, rfl⟩, hc⟩
  | uncleared => exact ⟨⟨_, rfl⟩, hc⟩
  | cleared hs _ hd =>
    cases hs.symm.trans hc
    cases hd with
    | spoiled => exact ⟨⟨_, rfl⟩, rfl⟩
    | unready hn => exact absurd hp hn
    | drawn hi => cases hi.symm.trans hp
    | failed hi => cases hi.symm.trans hp

namespace Settled

theorem render (h : s.Settled l b) (frame : SourceFrame L) :
    (s.render Rasterizer.renderer frame b).2.1.Settled l
      (s.render Rasterizer.renderer frame b).2.2 := by
  rcases h with h | h | ⟨c, hc, hp⟩
  · cases hf : frame.texture.size.isEmpty with
    | false =>
      obtain ⟨b', _, he, -, -, hb⟩ := h.render frame hf
      rw [he]
      exact .inl hb
    | true => exact .inr (.inr (h.spoiled (h.render_empty frame hf)))
  · refine .inr (.inl ?_)
    unfold Session.render
    rw [h]
    exact h
  · exact .inr (.inr ⟨c, (render_spoiled hc hp frame).2, hp⟩)

theorem ready (h : s.Settled l b) {frame : SourceFrame L}
    (hr : (s.render Rasterizer.renderer frame b).1 = .ok ()) : s.Ready l b := by
  rcases h with h | h | ⟨c, hc, hp⟩
  · exact h
  · unfold Session.render at hr
    rw [h] at hr
    cases hr
  · obtain ⟨e, he⟩ := (render_spoiled (b := b) hc hp frame).1
    rw [he] at hr
    cases hr

end Settled

end

variable [Coefficient K] [Rotation K] [Coordinate L] [Narrowing K L] {k : Sink δ}

/-- Unless a start succeeds, a session stays settled. -/
theorem Settled.perform {g : Rig K L (Rasterizer L) δ} {l : Layout K}
    (h : g.session.Settled l g.renderer) {op : Operation L}
    (ho : ∀ reply, (op, (g.perform Rasterizer.renderer k op).1) ≠ (.start, .ok reply)) :
    (g.perform Rasterizer.renderer k op).2.session.Settled l
      (g.perform Rasterizer.renderer k op).2.renderer := by
  cases op with
  | prepare source =>
    obtain ⟨o, p, i, he⟩ := g.session.prepare_session source
    simp only [Rig.perform, he]
    exact h.imp_left fun hr => ⟨hr.compositor, hr.target⟩
  | setMaxSize | invalidate | notify => exact h.imp_left fun hr => ⟨hr.compositor, hr.target⟩
  | start =>
    -- a start that fails leaves the session idle
    have hs := g.session.isStarted_start Rasterizer.renderer k g.renderer g.sink
    simp only [Rig.perform] at ho ⊢
    cases hr : (g.session.start Rasterizer.renderer k g.renderer g.sink).result with
    | ok a => exact absurd (by rw [hr]; rfl) (ho (.announced a))
    | error e =>
      rw [hr] at hs
      exact .inr (.inl (Option.not_isSome_iff_eq_none.1 (Bool.eq_false_iff.1 hs)))
  | render frame => exact h.render frame
  | stop =>
    simp only [Rig.perform, stop_fst]
    exact .inr (.inl rfl)
  | release =>
    simp only [Rig.perform, release_fst]
    exact h.imp_left fun hr => ⟨hr.compositor, hr.target⟩

theorem Settled.run {g : Rig K L (Rasterizer L) δ} {l : Layout K}
    (h : g.session.Settled l g.renderer) {post : List (Operation L)}
    (hl : ∀ reply, (.start, .ok reply) ∉ g.replies Rasterizer.renderer k post) :
    (g.run Rasterizer.renderer k post).session.Settled l
      (g.run Rasterizer.renderer k post).renderer := by
  induction post generalizing g with
  | nil => exact h
  | cons op post ih =>
    simp only [Rig.replies, List.mem_cons, not_or] at hl
    exact ih (h.perform fun reply => Ne.symm (hl reply).1) fun reply => (hl reply).2

/-- Since the last start, a session is settled for the layout that it was started on. -/
theorem settled_of_startedOn {g₀ : Rig K L (Rasterizer L) δ} {l pre post : List (Operation L)}
    {plan : Plan K} (h : g₀.StartedOn Rasterizer.renderer k l pre plan post) :
    (g₀.run Rasterizer.renderer k l).session.Settled plan.layout
      (g₀.run Rasterizer.renderer k l).renderer := by
  rw [← h.run_eq]
  refine Settled.run ?_ h.last
  rw [Rig.run_snoc]
  obtain ⟨reply, hr⟩ := h.succeeded
  have hp := h.planned
  generalize g₀.run Rasterizer.renderer k pre = g at hr hp ⊢
  simp only [Rig.perform] at hr ⊢
  cases hs : (g.session.start Rasterizer.renderer k g.renderer g.sink).result with
  | error e => rw [hs] at hr; cases hr
  | ok a =>
    obtain ⟨plan', hp', hready⟩ := ready_of_start hs
    cases hp'.symm.trans hp
    exact .inl hready

end Session

/-! ## Places -/

namespace Plan

variable [Coefficient K] [Rotation K] {o : Options K} {display : DisplayState} {plan plan' : Plan K}

theorem Makes.region1_eq (h : Makes o display plan) (dual : o.isDual = true) {crop2 : Rect}
    (h' : Makes { o with crop2 := some crop2 } display plan') :
    plan'.layout.region1 = plan.layout.region1 := by
  cases h with
  | single whole => rw [Options.isDual, whole] at dual; cases dual
  | pair _ region1 _ back1 =>
    cases h' with
    | single whole => cases whole
    | pair _ region1' _ back1' =>
      cases region1'.symm.trans region1
      cases back1'.symm.trans back1
      rfl

theorem Makes.region2_eq (h : Makes o display plan) (dual : o.isDual = true) {crop : Option Rect}
    (h' : Makes { o with crop := crop } display plan') :
    ∃ p x, plan.layout.region2 = some p ∧ plan'.layout.region2 = some { p with x := x } := by
  cases h with
  | single whole => rw [Options.isDual, whole] at dual; cases dual
  | pair split _ region2 _ back2 =>
    cases h' with
    | single whole => rw [Options.isDual, whole] at dual; cases dual
    | pair split' _ region2' _ back2' =>
      cases split'.symm.trans split
      cases region2'.symm.trans region2
      cases back2'.symm.trans back2
      exact ⟨_, _, rfl, rfl⟩

end Plan

/-! ## Captures -/

/-- Two pictures agree through viewports of the same size: place by place, counted from the bottom left
corner of each viewport. -/
structure Frame.Agrees (t t' : Frame) (v v' : Viewport) : Prop where
  size : v'.size = v.size
  pixel : ∀ x y, x < v.width → y < v.height → ∃ color,
    t.pixel? (v.x + x) (t.height - 1 - (v.y + y)) = some color ∧
      t'.pixel? (v'.x + x) (t'.height - 1 - (v'.y + y)) = some color

namespace Layout

variable [Coordinate L] [Narrowing K L]

omit [Coordinate L] [Narrowing K L] in
theorem viewport_move {p : Placement K} {v : Viewport} (h : p.viewport = some v) (x : Nat) :
    ({ p with x := x } : Placement K).viewport = some { v with x := x } := by
  obtain ⟨hf, rfl⟩ := Placement.viewport_eq_some_iff.1 h
  exact Placement.viewport_eq_some_iff.2 ⟨hf, rfl⟩

/-- Places that differ in the column alone show the same, whatever the layouts around them. -/
theorem Shows.agrees {l l' : Layout K} {frame : SourceFrame L} {t t' : Frame} (h : l.Shows frame t)
    (h' : l'.Shows frame t') (hl : l.Packed) (hl' : l'.Packed) {p : Placement K} {x : Nat}
    (hp : p ∈ l.placements) (hp' : { p with x := x } ∈ l'.placements) {v : Viewport}
    (hv : p.viewport = some v) : t.Agrees t' v { v with x := x } := by
  exact ⟨rfl, fun _ _ hx hy => ⟨_, h.shade hl hp hv hx hy,
    h'.shade hl' hp' (viewport_move hv x) hx hy⟩⟩

end Layout

namespace Session

variable [Coefficient K] [Rotation K] [Coordinate L] [Narrowing K L]

/-- After a run, a session captures a frame: it was last started on a plan that was last prepared for a
display, from the options given, and it now renders the frame, which leaves this picture in the target,
with all the pixels of its size. -/
structure Captures (k : Sink δ) (g : Rig K L (Rasterizer L) δ) (l : List (Operation L)) (o : Options K)
    (display : DisplayState) (plan : Plan K) (frame : SourceFrame L) (t : Frame) : Prop where
  started : ∃ pre post, g.StartedOn Rasterizer.renderer k l pre plan post ∧ ∃ pre' source post',
    g.PreparedOn Rasterizer.renderer k pre pre' source display plan post' ∧
      (g.run Rasterizer.renderer k pre').session.options.lockOn display = o
  rendered : ((g.run Rasterizer.renderer k l).perform Rasterizer.renderer k (.render frame)).1 =
    .ok .done
  target : ((g.run Rasterizer.renderer k l).perform Rasterizer.renderer k
    (.render frame)).2.renderer.target = some t.toCanvas

variable {k : Sink δ} {g : Rig K L (Rasterizer L) δ} {l : List (Operation L)} {o : Options K}
  {display : DisplayState} {plan : Plan K} {frame : SourceFrame L} {t : Frame}

/-- What is captured is the frame through the layout of a plan made from the options. -/
theorem Captures.shows (h : Captures k g l o display plan frame t) :
    Plan.Makes o display plan ∧ plan.layout.Shows frame t := by
  obtain ⟨pre, post, hstart, pre', source, post', hprep, rfl⟩ := h.started
  have hmade := Plan.make_cases (made_of_preparedOn hprep)
  refine ⟨hmade, ?_⟩
  have hsettled := settled_of_startedOn hstart
  have hr := h.rendered
  have ht := h.target
  generalize g.run Rasterizer.renderer k l = g' at hsettled hr ht
  have hok : (g'.session.render Rasterizer.renderer frame g'.renderer).1 = .ok () := by
    simp only [Rig.perform] at hr
    cases he : (g'.session.render Rasterizer.renderer frame g'.renderer).1 with
    | error e => rw [he] at hr; cases hr
    | ok => rfl
  have hready := hsettled.ready hok
  cases hf : frame.texture.size.isEmpty with
  | true => rw [hready.render_empty frame hf] at hok; cases hok
  | false =>
    obtain ⟨b', t₀, he, hs, hpainted, -⟩ := hready.render frame hf
    simp only [Rig.perform, he] at ht
    exact Layout.shows_painted hmade.pairwise_apart hs (Option.some.inj (ht.symm.trans hpainted))

theorem exists_captures {s : Session K L} {source : DisplaySource} {virtual : Option Nat} {d : δ}
    (ha : source s.options.displayId = .ok (some display)) (hp : (s.prepare source).1 = .ok plan)
    (hv : plan.videoSize.isEmpty = false) (hc : plan.videoSize.Countable)
    (hk : (k.attach plan.display plan.inputSize ((s.prepare source).2.release k d).2).1 = .ok virtual)
    (hf : frame.texture.size.isEmpty = false) {b : Rasterizer L} (hb : b.Sound) : ∃ t : Frame,
      Captures k ⟨s, b, d⟩ [.prepare source, .start] (s.options.lockOn display) display plan frame t := by
  have hplan : (s.prepare source).2.plan = some plan := by
    rcases s.plan_prepare source with ⟨⟨e, he⟩, -⟩ | ⟨_, plan', -, hok, hplan, -⟩
    · rw [he] at hp
      cases hp
    · cases hok.symm.trans hp
      exact hplan
  have hprepared : Rig.PreparedOn Rasterizer.renderer k ⟨s, b, d⟩ [.prepare source] [] source display
      plan [] := by
    refine ⟨rfl, ha, ?_, fun _ _ => List.not_mem_nil⟩
    simp only [Rig.run, Rig.perform, List.foldl_nil, hp]
    rfl
  have hstart := start_ok (b := b) hplan hv hk
  have hstarted : Rig.StartedOn Rasterizer.renderer k ⟨s, b, d⟩ [.prepare source, .start]
      [.prepare source] plan [] := by
    refine ⟨rfl, hplan, ⟨.announced (announcement plan virtual), ?_⟩, fun _ => List.not_mem_nil⟩
    simp only [Rig.run, Rig.perform, List.foldl_cons, List.foldl_nil, hstart]
    rfl
  obtain ⟨-, hready⟩ := ready_start (Rig.run Rasterizer.renderer k ⟨s, b, d⟩ [.prepare source]) hplan hv hk
  have hmade := Plan.make_cases (made_of_preparedOn hprepared)
  have hsound := Rasterizer.keeps_sound.run (k := k) (g := ⟨s, b, d⟩) hb [.prepare source, .start]
  obtain ⟨hdone, hshows⟩ := Ready.shows (k := k) hready hsound hmade.pairwise_apart hf
  obtain ⟨t, ht, -⟩ := hshows hc
  exact ⟨t, ⟨_, _, hstarted, _, _, _, hprepared, rfl⟩, hdone, ht⟩

/-! ## Other crops next to the same one -/

open scoped Straight

/-- A session with some options that nothing has been done with, on the small display. -/
def blankRig (o : Options Rat) : Rig Rat Rat (Rasterizer Rat) FixedDisplay :=
  ⟨⟨o, ⟨false⟩, none, none, false, Invalidation.none⟩, Rasterizer.new, smallDisplay⟩

def launched : List (Operation Rat) := [.prepare smallDisplay.source, .start]

def smallPicture : SourceFrame Rat := .upright coordinatePicture

/-- The left half of the display, next to a second region that overlaps it. -/
def besideMiddle : Options Rat := { sideBySide with crop2 := some ⟨4, 0, 12, 8⟩ }

def besideMiddlePlan : Plan Rat where
  display := smallDisplay.state
  layout :=
    { combined := ⟨16, 8⟩
      region1 := some ⟨⟨1 / 2, 0, 0, 1, 0, 0⟩, ⟨8, 8⟩, 0, 0⟩
      region2 := some ⟨⟨1 / 2, 0, 0, 1, 1 / 4, 0⟩, ⟨8, 8⟩, 8, 0⟩ }
  inputSize := ⟨16, 8⟩
  transform1 := some ⟨1 / 2, 0, 0, 1, 0, 0⟩
  transform2 := some ⟨1 / 2, 0, 0, 1, 1 / 4, 0⟩
  dual := true

/-- The right half alone. -/
def besideNothing : Options Rat := { sideBySide with crop := none }

def besideNothingPlan : Plan Rat where
  display := smallDisplay.state
  layout :=
    { combined := ⟨8, 8⟩
      region1 := some ⟨Affine.identity, ⟨0, 0⟩, 0, 0⟩
      region2 := some ⟨⟨1 / 2, 0, 0, 1, 1 / 2, 0⟩, ⟨8, 8⟩, 0, 0⟩ }
  inputSize := ⟨16, 8⟩
  transform1 := none
  transform2 := some ⟨1 / 2, 0, 0, 1, 1 / 2, 0⟩
  dual := true

theorem exists_captures_blank (o : Options Rat) (plan : Plan Rat) (ho : o.displayId = 0)
    (hp : ((blankRig o).session.prepare smallDisplay.source).1 = .ok plan)
    (hv : plan.videoSize.isEmpty = false) (hc : plan.videoSize.Countable)
    (hi : plan.inputSize.isEmpty = false) : ∃ t : Frame,
      Captures FixedDisplay.sink (blankRig o) launched (o.lockOn smallDisplay.state)
        smallDisplay.state plan smallPicture t := by
  have ha : smallDisplay.source o.displayId = .ok (some smallDisplay.state) := by
    rw [ho]
    rfl
  have hk : (FixedDisplay.sink.attach plan.display plan.inputSize
      (((blankRig o).session.prepare smallDisplay.source).2.release FixedDisplay.sink
        smallDisplay).2).1 = .ok none := by
    obtain ⟨o', p, i, he⟩ := (blankRig o).session.prepare_session smallDisplay.source
    simp only [he, release, FixedDisplay.sink, FixedDisplay.attach, hi]
    rfl
  exact exists_captures ha hp hv hc hk (by decide +kernel) Rasterizer.Sound.new

end Session

end RegionCapture
