import RegionCapture.Session.Run
/-!
# What the operations of a session do

Preparing, starting, drawing and rendering, case by case: one constructor for every way an operation
can end, with the session, the renderer and the sink it leaves. The theorems about runs are case
analyses over these, so none of them looks at the operations again.
-/

namespace RegionCapture

/-! ## Beginning -/

/-- A new session is idle, with nothing planned. -/
theorem Session.new_eq {K L : Type} [Coefficient K] {o : Options K} {c : Capabilities}
    {s : Session K L} (h : Session.new o c = .ok s) :
    s = ⟨o, c, none, none, false, Invalidation.none⟩ := by
  unfold Session.new at h
  cases hv : o.validate with
  | error e => rw [hv] at h; cases h
  | ok => rw [hv] at h; cases h; rfl

/-! ## Preparing -/

namespace Options

variable {K : Type}

/-- An initial lock can be taken for the display, or none is asked for. -/
def CanLock (o : Options K) (display : DisplayState) : Prop := o.lock = .initial → display.turns < 4

/-- The options once an initial lock is taken for the display, if one is asked for. -/
def lockOn (o : Options K) (display : DisplayState) : Options K :=
  match o.lock, Orientation.ofDisplayRotation display.turns with
  | .initial, .ok orientation => { o with lock := .value, orientation := orientation }
  | _, _ => o

theorem lockOn_initial {o : Options K} {display : DisplayState} (h : o.lock = .initial)
    (ht : display.turns < 4) : o.lockOn display =
      { o with lock := .value, orientation := ⟨false, Fin.ofNat 4 (4 - display.turns)⟩ } := by
  rw [lockOn, h, Orientation.ofDisplayRotation, if_pos ht]

end Options

namespace Session

variable {K L β δ : Type}

/-- The session once its display is found and the lock is taken: nothing is planned yet. -/
def found (s : Session K L) (display : DisplayState) : Session K L :=
  { s with
    options := s.options.lockOn display
    invalidation := s.invalidation.reset display.size }

/-- How preparing ends, given what the source says about the display. -/
inductive Prepares [Coefficient K] [Rotation K] (s : Session K L) :
    Except Fault (Option DisplayState) → Except Fault (Plan K) × Session K L → Prop
  | unanswered {e} : Prepares s (.error e) (.error e, s)
  | unknown : Prepares s (.ok none) (.error (.unknownDisplay s.options.displayId), s)
  | unlocked {display} (lock : s.options.lock = .initial) (turns : 4 ≤ display.turns) :
      Prepares s (.ok (some display)) (.error (.displayRotation display.turns),
        { s with
          options := { s.options with lock := .value }
          invalidation := s.invalidation.reset display.size })
  | unplanned {display e} (lock : s.options.CanLock display)
      (failed : Plan.make (s.options.lockOn display) display = .error e) :
      Prepares s (.ok (some display)) (.error e, s.found display)
  | planned {display plan} (lock : s.options.CanLock display)
      (made : Plan.make (s.options.lockOn display) display = .ok plan) :
      Prepares s (.ok (some display)) (.ok plan, { s.found display with plan := some plan })

theorem takeLock_of_canLock {s : Session K L} {display : DisplayState}
    (h : s.options.CanLock display) :
    takeLock display s = (.ok (), { s with options := s.options.lockOn display }) := by
  unfold takeLock Options.lockOn
  cases hl : s.options.lock with
  | initial => simp only [Orientation.ofDisplayRotation, h hl, if_true]
  | unlocked => rfl
  | value => rfl

theorem takeLock_of_not_canLock {s : Session K L} {display : DisplayState}
    (h : ¬ s.options.CanLock display) :
    s.options.lock = .initial ∧ 4 ≤ display.turns ∧
      takeLock display s = (.error (.displayRotation display.turns),
        { s with options := { s.options with lock := .value } }) := by
  simp only [Options.CanLock, Classical.not_imp, Nat.not_lt] at h
  refine ⟨h.1, h.2, ?_⟩
  simp [takeLock, Orientation.ofDisplayRotation, h.1, Nat.not_lt.2 h.2]

theorem prepare_cases [Coefficient K] [Rotation K] (source : DisplaySource) (s : Session K L) :
    Prepares s (source s.options.displayId) (s.prepare source) := by
  unfold prepare
  rcases source s.options.displayId with e | _ | display
  · exact .unanswered
  · exact .unknown
  simp only [prepareFor]
  generalize hs : ({ s with invalidation := s.invalidation.reset display.size } : Session K L) = s'
  have ho : s'.options = s.options := by rw [← hs]
  by_cases h : s.options.CanLock display
  · rw [takeLock_of_canLock (ho ▸ h), ← hs]
    dsimp only
    cases hp : Plan.make (s.options.lockOn display) display with
    | error e => exact .unplanned h hp
    | ok plan => exact .planned h hp
  · obtain ⟨hl, ht, e⟩ := takeLock_of_not_canLock (s := s') (ho ▸ h)
    rw [e, ← hs]
    exact .unlocked (ho ▸ hl) ht

/-- If no lock stands in the way, preparing for a display that is found plans for it. -/
theorem prepare_of_canLock [Coefficient K] [Rotation K] {s : Session K L}
    {source : DisplaySource} {display : DisplayState}
    (ha : source s.options.displayId = .ok (some display)) (hl : s.options.CanLock display) :
    (s.prepare source).1 = Plan.make (s.options.lockOn display) display ∧
      (s.prepare source).2.options = s.options.lockOn display := by
  have hc := s.prepare_cases source
  generalize s.prepare source = out at hc ⊢
  rw [ha] at hc
  cases hc with
  | unlocked hi turns => exact absurd (hl hi) (Nat.not_lt.2 turns)
  | unplanned _ failed => exact ⟨failed.symm, rfl⟩
  | planned _ made => exact ⟨made.symm, rfl⟩

/-- Preparing changes no more of a session than its options, its plan and what it knows of the
display. -/
theorem prepare_session [Coefficient K] [Rotation K] (source : DisplaySource) (s : Session K L) :
    ∃ o p i, (s.prepare source).2 = { s with options := o, plan := p, invalidation := i } := by
  have hc := s.prepare_cases source
  generalize source s.options.displayId = answer, s.prepare source = out at hc ⊢
  cases hc <;> exact ⟨_, _, _, rfl⟩

end Session

/-! ## Drawing -/

namespace Compositor

variable {K L σ : Type}

/-- A compositor for a layout, once its program is made. -/
def made [Scalar L] [Narrowing K L] (l : Layout K) (id : Nat) : Compositor L :=
  { Compositor.new l with program := some id, phase := .initialized }

/-- How making the program of a new compositor ends. -/
theorem init_new [Scalar L] [Narrowing K L] (r : Renderer L σ) (l : Layout K) (b : σ) :
    (Compositor.new l : Compositor L).init r b = match r.createProgram .regions b with
      | (.error e, b') => (.error e, Compositor.new l, b')
      | (.ok id, b') => (.ok (), made l id, b') := by
  simp only [init, new, ne_eq, not_true_eq_false, if_false]
  rcases r.createProgram .regions b with ⟨_ | _, _⟩ <;> rfl

/-- How drawing a frame ends. -/
inductive Draws (r : Renderer L σ) (frame : SourceFrame L) (c : Compositor L) (b : σ) :
    Except Fault Unit × Compositor L × σ → Prop
  | spoiled (phase : c.phase = .drawing) : Draws r frame c b (.error .failedEarlier, c, b)
  | unready (phase : c.phase ≠ .drawing) (program : c.phase = .initialized → c.program = none) :
      Draws r frame c b (.error .notInitialized, c, b)
  | drawn {id b₁ b₂} (phase : c.phase = .initialized) (program : c.program = some id)
      (commands : r.performAll (c.frameCommands id frame) b = (.ok (), b₁))
      (unbind : r.perform .unbind b₁ = (.ok (), b₂)) : Draws r frame c b (.ok (), c, b₂)
  | failed {id result released e b₁ b₂} (phase : c.phase = .initialized)
      (program : c.program = some id)
      (commands : r.performAll (c.frameCommands id frame) b = (result, b₁))
      (unbind : r.perform .unbind b₁ = (released, b₂))
      (first : result = .error e ∨ result = .ok () ∧ released = .error e) :
      Draws r frame c b (.error e, { c with phase := .drawing }, b₂)

theorem draw_cases (r : Renderer L σ) (frame : SourceFrame L) (c : Compositor L) (b : σ) :
    Draws r frame c b (c.draw r frame b) := by
  unfold draw
  split
  · next id hp hid =>
    rcases hc : r.performAll (c.frameCommands id frame) b with ⟨result, b₁⟩
    rcases hu : r.perform .unbind b₁ with ⟨released, b₂⟩
    simp only [hu]
    rcases result with e | _
    · exact .failed hp hid hc hu (.inl rfl)
    · rcases released with e | _
      · exact .failed hp hid hc hu (.inr ⟨rfl, rfl⟩)
      · exact .drawn hp hid hc hu
  · next hp => exact .spoiled hp
  · next h hd =>
    refine .unready h fun hp => ?_
    cases hid : c.program with
    | none => rfl
    | some id => exact (hd id hp hid).elim

end Compositor

/-! ## Starting and rendering -/

namespace Session

variable {K L β δ : Type}

/-- The session neither started nor attached, and otherwise as it was. -/
def idle (s : Session K L) : Session K L := { s with compositor := none, attached := false }

@[simp] theorem idle_plan (s : Session K L) : s.idle.plan = s.plan := rfl

/-- How starting ends, from the states that the renderer and the sink are in once the session is
stopped and its display detached. -/
inductive Starts [Scalar K] [Scalar L] [Narrowing K L] (r : Renderer L β) (k : Sink δ)
    (s : Session K L) (b : β) (d : δ) : Started (Announcement K) K L β δ → Prop
  | unprepared (unplanned : s.plan = none) : Starts r k s b d ⟨.error .notPrepared, s.idle, b, d⟩
  | empty {plan} (planned : s.plan = some plan) (empty : plan.videoSize.isEmpty = true) :
      Starts r k s b d ⟨.error (.emptyOutput plan.videoSize), s.idle, b, d⟩
  | noTarget {plan e b₁} (planned : s.plan = some plan) (full : plan.videoSize.isEmpty = false)
      (target : r.perform (.ensureTarget plan.videoSize) b = (.error e, b₁)) :
      Starts r k s b d ⟨.error e, s.idle, b₁, d⟩
  | noProgram {plan e b₁ b₂} (planned : s.plan = some plan) (full : plan.videoSize.isEmpty = false)
      (target : r.perform (.ensureTarget plan.videoSize) b = (.ok (), b₁))
      (program : r.createProgram .regions b₁ = (.error e, b₂)) :
      Starts r k s b d ⟨.error e, s.idle, b₂, d⟩
  | noDisplay {plan id e b₁ b₂ d₁} (planned : s.plan = some plan)
      (full : plan.videoSize.isEmpty = false)
      (target : r.perform (.ensureTarget plan.videoSize) b = (.ok (), b₁))
      (program : r.createProgram .regions b₁ = (.ok id, b₂))
      (attach : k.attach plan.display plan.inputSize d = (.error e, d₁)) :
      Starts r k s b d ⟨.error e, s.idle, r.deleteProgram id b₂, d₁⟩
  | started {plan id virtual b₁ b₂ d₁} (planned : s.plan = some plan)
      (full : plan.videoSize.isEmpty = false)
      (target : r.perform (.ensureTarget plan.videoSize) b = (.ok (), b₁))
      (program : r.createProgram .regions b₁ = (.ok id, b₂))
      (attach : k.attach plan.display plan.inputSize d = (.ok virtual, d₁)) :
      Starts r k s b d ⟨.ok (announcement plan virtual),
        { s with compositor := some (Compositor.made plan.layout id), attached := true }, b₂, d₁⟩

@[simp] theorem stop_fst (r : Renderer L β) (s : Session K L) (b : β) :
    (s.stop r b).1 = { s with compositor := none } := by
  obtain ⟨_, _, _, _ | _, _, _⟩ := s <;> rfl

@[simp] theorem release_fst (k : Sink δ) (s : Session K L) (d : δ) :
    (s.release k d).1 = { s with attached := false } := by
  obtain ⟨_, _, _, _, _ | _, _⟩ := s <;> rfl

theorem start_cases [Scalar K] [Scalar L] [Narrowing K L] (r : Renderer L β) (k : Sink δ)
    (s : Session K L) (b : β) (d : δ) :
    Starts r k s (s.stop r b).2 (s.release k d).2 (s.start r k b d) := by
  have hd : (Session.release k (s.stop r b).1 d) = (s.idle, (s.release k d).2) := by
    rw [Prod.ext_iff, release_fst, stop_fst]
    exact ⟨rfl, by obtain ⟨_, _, _, _, _ | _, _⟩ := s <;> rfl⟩
  simp only [start, hd, idle_plan]
  generalize (s.stop r b).2 = b, (s.release k d).2 = d
  cases hp : s.plan with
  | none => exact .unprepared hp
  | some plan =>
    dsimp only
    split
    · next he => exact .empty hp he
    · next he =>
      rw [Bool.not_eq_true] at he
      unfold launch
      rcases ht : r.perform (.ensureTarget plan.videoSize) b with ⟨e | _, b₁⟩
      · exact .noTarget hp he ht
      dsimp only
      rw [Compositor.init_new]
      rcases hc : r.createProgram .regions b₁ with ⟨e | id, b₂⟩
      · exact .noProgram hp he ht hc
      dsimp only
      rcases ha : k.attach plan.display plan.inputSize d with ⟨e | virtual, d₁⟩
      · exact .noDisplay hp he ht hc ha
      · exact .started hp he ht hc ha

/-- Starting a session changes no more than its compositor and whether its display is attached. -/
theorem start_session [Scalar K] [Scalar L] [Narrowing K L] (r : Renderer L β) (k : Sink δ)
    (s : Session K L) (b : β) (d : δ) : ∃ c attached,
      (s.start r k b d).session = { s with compositor := c, attached := attached } := by
  have hc := s.start_cases r k b d
  generalize s.start r k b d = out at hc ⊢
  cases hc with
  | started => exact ⟨_, _, rfl⟩
  | _ => exact ⟨none, false, rfl⟩

/-- After a start, the session is started exactly if the start has succeeded. -/
theorem isStarted_start [Scalar K] [Scalar L] [Narrowing K L] (r : Renderer L β) (k : Sink δ)
    (s : Session K L) (b : β) (d : δ) :
    (s.start r k b d).session.isStarted = (s.start r k b d).result.isOk := by
  have hc := s.start_cases r k b d
  generalize s.start r k b d = out at hc ⊢
  cases hc <;> rfl

/-- How rendering a frame ends. -/
inductive Renders (r : Renderer L β) (frame : SourceFrame L) (s : Session K L) (b : β) :
    Except Fault Unit × Session K L × β → Prop
  | unstarted (stopped : s.compositor = none) : Renders r frame s b (.error .notStarted, s, b)
  | uncleared {c e b₁} (running : s.compositor = some c)
      (clear : r.perform (.clearTarget .transparent) b = (.error e, b₁)) :
      Renders r frame s b (.error e, s, b₁)
  | cleared {c c' result b₁ b₂} (running : s.compositor = some c)
      (clear : r.perform (.clearTarget .transparent) b = (.ok (), b₁))
      (draws : c.Draws r frame b₁ (result, c', b₂)) :
      Renders r frame s b (result, { s with compositor := some c' }, b₂)

theorem render_cases (r : Renderer L β) (frame : SourceFrame L) (s : Session K L) (b : β) :
    Renders r frame s b (s.render r frame b) := by
  unfold render
  cases hs : s.compositor with
  | none => exact .unstarted hs
  | some c =>
    rcases hc : r.perform (.clearTarget .transparent) b with ⟨e | _, b₁⟩
    · simp only; exact .uncleared hs hc
    · simp only; exact .cleared hs hc (c.draw_cases r frame b₁)

/-- Rendering changes no more of a session than its compositor. -/
theorem render_session (r : Renderer L β) (frame : SourceFrame L) (s : Session K L) (b : β) :
    ∃ c, (s.render r frame b).2.1 = { s with compositor := c } := by
  have hc := s.render_cases r frame b
  generalize s.render r frame b = out at hc ⊢
  cases hc with
  | cleared => exact ⟨_, rfl⟩
  | _ => exact ⟨s.compositor, rfl⟩

/-- Rendering neither starts nor stops a session. -/
theorem isStarted_render (r : Renderer L β) (frame : SourceFrame L) (s : Session K L) (b : β) :
    (s.render r frame b).2.1.isStarted = s.isStarted := by
  have hc := s.render_cases r frame b
  generalize s.render r frame b = out at hc ⊢
  cases hc with
  | cleared hr => rw [isStarted, isStarted, hr]; rfl
  | _ => rfl

end Session

end RegionCapture
