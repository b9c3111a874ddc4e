import RegionCapture.Proofs.Compositor.Commands
import RegionCapture.Proofs.Session.Attachment
import RegionCapture.Proofs.Session.Ownership
import RegionCapture.Proofs.Session.Places
/-!
# Starting is all or nothing

A start tears the old capture down and builds a new one in stages that may each fail. `Foiled` says what
a start that fails leaves, at whatever stage, and `Underway` what one that succeeds has done and in which
order; whoever listens hears of the second and not of the first (`start_all_or_nothing`).
-/

namespace RegionCapture

/-! ## Journals of a start -/

namespace Journaled

variable {δ : Type} {k : Sink δ} {d d' : Journaled SinkEvent δ} {display : DisplayState}
  {surface : Size}

theorem journal_attached {virtual : Option Nat}
    (h : (sink k).attach display surface d = (.ok virtual, d')) :
    d'.journal = d.journal ++ [.attached display surface] ∧
      (k.attach display surface d.inner).1 = .ok virtual := by
  simp only [sink] at h
  split at h
  · next he =>
    cases h
    exact ⟨rfl, by rw [he]⟩
  · cases h

end Journaled

namespace Session

variable {K L β δ ω : Type}

open Journaled

/-- What the renderer is asked when the session is stopped. -/
def deletions (s : Session K L) : List (RenderEvent L) := (s.program?.map .deleted).toList

/-- What the sink is asked when the session is released. -/
def detachments (s : Session K L) : List SinkEvent := if s.attached then [.detached] else []

theorem journal_stop (r : Renderer L β) (s : Session K L) (b : Journaled (RenderEvent L) β) :
    (s.stop (renderer r) b).2.journal = b.journal ++ s.deletions := by
  unfold Session.stop deletions program?
  cases s.compositor with
  | none => simp
  | some c =>
    simp only [Compositor.release, Option.bind_some]
    cases c.program with
    | none => simp
    | some id => rfl

theorem journal_release (k : Sink δ) (s : Session K L) (d : Journaled SinkEvent δ) :
    (s.release (sink k) d).2.journal = d.journal ++ s.detachments ∧
      (s.release (sink k) d).2.inner = (s.release k d.inner).2 := by
  unfold Session.release detachments
  cases s.attached with
  | false => simp
  | true => exact ⟨rfl, rfl⟩

/-! ## The two ways a start ends -/

/-- What a start that fails leaves: the session idle and otherwise as it was, no program, and nothing
attached. Without a plan, or with one that has no output, no more is asked of the renderer than to delete
the program there was. -/
structure Foiled (g : Rig K L (Journaled (RenderEvent L) β) (Journaled SinkEvent δ)) (e : Fault)
    (out : Started Unit K L (Journaled (RenderEvent L) β) (Journaled SinkEvent δ)) : Prop where
  session : out.session = { g.session with compositor := none, attached := false }
  deleted : Lease.Run none out.renderer.programs none
  detached : Lease.Run none out.sink.displays none
  unplanned : g.session.plan = none →
    e = .notPrepared ∧ out.renderer.journal = g.renderer.journal ++ g.session.deletions
  empty : ∀ plan, g.session.plan = some plan → plan.videoSize.isEmpty = true →
    e = .emptyOutput plan.videoSize ∧
      out.renderer.journal = g.renderer.journal ++ g.session.deletions

/-- What a start that succeeds has done: the target is there before the program, the display is attached
once nothing else is, and whoever listens is told once. -/
structure Underway (k : Sink δ) (g : Rig K L (Journaled (RenderEvent L) β) (Journaled SinkEvent δ))
    [Scalar K] [Scalar L] [Narrowing K L] (plan : Plan K) (listener : Option (Listener K ω))
    (w : ω) (out : Started Unit K L (Journaled (RenderEvent L) β) (Journaled SinkEvent δ))
    (w' : ω) : Prop where
  planned : g.session.plan = some plan
  full : plan.videoSize.isEmpty = false
  /-- The compositor is a new one for the plan, with the program that has just been made. -/
  started : ∃ id,
    out.session = { g.session with
      compositor := some
        { draws := plan.layout.placements.filterMap fun p =>
            p.viewport.map fun v => ⟨v, p.inverse.toMat4⟩
          program := some id
          phase := .initialized }
      attached := true } ∧
    out.renderer.journal = g.renderer.journal ++ g.session.deletions ++
      [.done (.ensureTarget plan.videoSize), .made id]
  attached : out.sink.journal = g.sink.journal ++ g.session.detachments ++
    [.attached plan.display plan.inputSize]
  /-- Nothing is attached any more when the display is. -/
  free : Lease.Run none ((g.sink.journal ++ g.session.detachments).map SinkEvent.lease) none
  /-- A virtual display counts only if the sink reports one and the display is not display 0. -/
  heard : ∃ virtual,
    (k.attach plan.display plan.inputSize (g.session.release k g.sink.inner).2).1 = .ok virtual ∧
      w' = match listener with
        | none => w
        | some hear =>
          hear ⟨if plan.display.id = 0 then 0 else virtual.getD plan.display.id,
            PointerMap.create plan.videoSize plan.transform1 plan.display.size⟩ w

theorem announcement_eq [Scalar K] {plan : Plan K} (h : plan.inputSize = plan.display.size)
    (virtual : Option Nat) :
    announcement plan virtual =
      ⟨if plan.display.id = 0 then 0 else virtual.getD plan.display.id,
        PointerMap.create plan.videoSize plan.transform1 plan.display.size⟩ := by
  unfold announcement
  cases virtual with
  | none => by_cases hid : plan.display.id = 0 <;> simp [hid]
  | some id => by_cases hid : plan.display.id = 0 <;> simp [hid, h]

section

variable [Scalar K] [Scalar L] [Narrowing K L] {r : Renderer L β} {k : Sink δ}
  {g : Rig K L (Journaled (RenderEvent L) β) (Journaled SinkEvent δ)}

theorem foiled_of_error (hr : OwnsPrograms g.session g.renderer)
    (hk : AttachesInTurn g.session g.sink) {listener : Option (Listener K ω)} {w : ω} {e : Fault}
    (h : (g.session.startHeard (renderer r) (sink k) listener g.renderer g.sink w).1.result = .error e) :
    Foiled g e (g.session.startHeard (renderer r) (sink k) listener g.renderer g.sink w).1 ∧
      (g.session.startHeard (renderer r) (sink k) listener g.renderer g.sink w).2 = w := by
  have hc := g.session.start_cases (renderer r) (sink k) g.renderer g.sink
  have hj := journal_stop r g.session g.renderer
  -- whatever fails, programs and attachments have been in turn up to the end
  have hp := (hr.start (sink k) g.sink (r := r)).turns
  have ha : Lease.Run _ _ _ := hk.start (k := k) (renderer r) g.renderer
  simp only [startHeard] at h ⊢
  generalize (g.session.stop (renderer r) g.renderer).2 = b₀ at hc hj
  generalize g.session.start (renderer r) (sink k) g.renderer g.sink = out at h hc hp ha ⊢
  cases hc with
  | unprepared hn =>
    cases h
    refine ⟨⟨rfl, hp, ha, fun _ => ⟨rfl, hj⟩, fun plan hplan => ?_⟩, by cases listener <;> rfl⟩
    rw [hn] at hplan
    cases hplan
  | empty hplan he =>
    cases h
    refine ⟨⟨rfl, hp, ha, fun hn => ?_, fun plan' hplan' _ => ?_⟩, by cases listener <;> rfl⟩
    · rw [hn] at hplan
      cases hplan
    · cases hplan.symm.trans hplan'
      exact ⟨rfl, hj⟩
  | noTarget hplan hfull | noProgram hplan hfull | noDisplay hplan hfull =>
    cases h
    refine ⟨⟨rfl, hp, ha, fun hn => ?_, fun plan' hplan' he => ?_⟩, by cases listener <;> rfl⟩
    · rw [hn] at hplan
      cases hplan
    · cases hplan.symm.trans hplan'
      rw [hfull] at he
      cases he
  | started => cases h

end

variable [Coefficient K] [Rotation K] [Scalar L] [Narrowing K L]

theorem underway_of_ok {r : Renderer L β} {k : Sink δ}
    {g : Rig K L (Journaled (RenderEvent L) β) (Journaled SinkEvent δ)}
    (hk : AttachesInTurn g.session g.sink) (hplanned : g.session.Planned)
    {listener : Option (Listener K ω)} {w : ω}
    (h : (g.session.startHeard (renderer r) (sink k) listener g.renderer g.sink w).1.result = .ok ()) :
    ∃ plan, Underway k g plan listener w
      (g.session.startHeard (renderer r) (sink k) listener g.renderer g.sink w).1
      (g.session.startHeard (renderer r) (sink k) listener g.renderer g.sink w).2 := by
  have hc := g.session.start_cases (renderer r) (sink k) g.renderer g.sink
  have hj := journal_stop r g.session g.renderer
  obtain ⟨hd, hinner⟩ := journal_release k g.session g.sink
  have ha := hk.turns_release (k := k)
  simp only [startHeard] at h ⊢
  generalize (g.session.stop (renderer r) g.renderer).2 = b₀ at hc hj
  generalize (g.session.release (sink k) g.sink).2 = d₀ at hc hd hinner ha
  generalize g.session.start (renderer r) (sink k) g.renderer g.sink = out at h hc ⊢
  cases hc with
  | @started plan id virtual _ _ _ hplan hfull target program attach =>
    obtain ⟨_, display, hmade⟩ := hplanned plan hplan
    obtain ⟨hdisplay, hinput⟩ := (Plan.make_cases hmade).display_eq
    obtain ⟨hattached, hvirtual⟩ := journal_attached attach
    refine ⟨plan, hplan, hfull, ⟨id, rfl, ?_⟩, ?_, ?_, virtual, ?_, ?_⟩
    · rw [journal_made program, journal_perform target, hj]
      simp [RenderEvent.ofResult]
    · rw [hattached, hd]
    · rw [← hd]
      exact ha
    · rw [← hinner]
      exact hvirtual
    · rw [announcement_eq (hinput.trans (congrArg DisplayState.size hdisplay.symm))]
      cases listener <;> rfl
  | _ => cases h

/-- In every run from a new session, whatever renderer and sink do, and whoever listens: a start that
fails leaves an idle session with its plan, its options and what it knows of the display, no program and
nothing attached, and nobody hears of it; a start that succeeds leaves the session started on its plan,
everything made in order, the display attached once, and the listener told once. -/
theorem start_all_or_nothing {o : Options K} {c : Capabilities} {s₀ : Session K L} (h₀ : new o c = .ok s₀)
    (r : Renderer L β) (k : Sink δ) (b₀ : β) (d₀ : δ) (l : List (Operation L))
    (listener : Option (Listener K ω)) (w : ω) :
    let g := Rig.run (renderer r) (sink k) ⟨s₀, ⟨b₀, []⟩, ⟨d₀, []⟩⟩ l
    let out := g.session.startHeard (renderer r) (sink k) listener g.renderer g.sink w
    (∀ e, out.1.result = .error e → Foiled g e out.1 ∧ out.2 = w) ∧
      (out.1.result = .ok () → ∃ plan, Underway k g plan listener w out.1 out.2) := by
  intro g out
  have hr : OwnsPrograms g.session g.renderer := by
    refine Rig.run_inv (fun g => OwnsPrograms g.session g.renderer) ownsPrograms_perform ?_ l
    rw [new_eq h₀]
    exact ⟨.nil, rfl⟩
  have hk : AttachesInTurn g.session g.sink := by
    refine Rig.run_inv (fun g => AttachesInTurn g.session g.sink) attachesInTurn_perform ?_ l
    rw [new_eq h₀]
    exact .nil
  have hplanned : g.session.Planned := planned_run h₀ (renderer r) (sink k) ⟨b₀, []⟩ ⟨d₀, []⟩ l
  exact ⟨fun e he => foiled_of_error hr hk he, fun hok => underway_of_ok hk hplanned hok⟩

/-! ## A capture started again while somebody listens -/

/-- The small display and a session for it, after some operations. -/
def attended (l : List (Operation Float32)) :
    Rig Float Float32 (Journaled (RenderEvent Float32) Nat) (Journaled SinkEvent FixedDisplay) :=
  Rig.run (renderer (.numbering Float32)) (sink FixedDisplay.sink)
    ⟨untouched, ⟨1, []⟩, ⟨smallDisplay, []⟩⟩ l

/-- Somebody who keeps what they hear. -/
def keeper : Listener Float (List (Announcement Float)) := fun a heard => heard ++ [a]

/-- A start after some operations, with the keeper listening. -/
def attendedStart (l : List (Operation Float32)) :=
  (attended l).session.startHeard (renderer (.numbering Float32)) (sink FixedDisplay.sink)
    (some keeper) (attended l).renderer (attended l).sink []

theorem start_all_or_nothing_again :
    new Options.standard ⟨false⟩ = .ok untouched ∧
      (attendedStart []).1.result = .error .notPrepared ∧
      Foiled (attended []) .notPrepared (attendedStart []).1 ∧ (attendedStart []).2 = [] ∧
      (attendedStart [.prepare smallDisplay.source, .start]).1.result = .ok () ∧
      (attendedStart [.prepare smallDisplay.source, .start]).2.map Announcement.displayId = [0] ∧
      ∃ plan, Underway FixedDisplay.sink (attended [.prepare smallDisplay.source, .start]) plan
        (some keeper) [] (attendedStart [.prepare smallDisplay.source, .start]).1
        (attendedStart [.prepare smallDisplay.source, .start]).2 := by
  obtain ⟨hfoiled, hsilent⟩ := (start_all_or_nothing new_untouched (.numbering Float32)
    FixedDisplay.sink 1 smallDisplay [] (some keeper) []).1 .notPrepared rfl
  exact ⟨new_untouched, rfl, hfoiled, hsilent, rfl, rfl,
    (start_all_or_nothing new_untouched (.numbering Float32) FixedDisplay.sink 1 smallDisplay
      [.prepare smallDisplay.source, .start] (some keeper) []).2 rfl⟩

end Session

end RegionCapture
