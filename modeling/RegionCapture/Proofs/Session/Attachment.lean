import RegionCapture.Proofs.Session.Journal
import RegionCapture.Proofs.Session.Runs
/-!
# When the display is attached

Being started and having the display attached are two things: stopping leaves the display attached,
and releasing does not stop. `AttachesInTurn` is what every operation keeps of the calls that the sink
sees; `display_attached_in_turn` is what follows for whole runs, whatever fails on the way.
-/

namespace RegionCapture.Session

variable {K L β δ : Type}

/-- What the session holds of the sink. -/
def attachment? (s : Session K L) : Option Unit := if s.attached then some () else none

@[simp] theorem isSome_attachment? (s : Session K L) : s.attachment?.isSome = s.attached := by
  unfold attachment?
  split <;> simp_all

/-- Displays have been attached and detached in turn, and the session knows whether one is. -/
def AttachesInTurn (s : Session K L) (d : Journaled SinkEvent δ) : Prop :=
  Lease.Run none d.displays s.attachment?

namespace AttachesInTurn

variable {k : Sink δ} {s : Session K L} {d : Journaled SinkEvent δ}

open Journaled

/-- A display that is attached is detached, and the sink is not called otherwise. -/
theorem turns_release (h : AttachesInTurn s d) :
    Lease.Run none (s.release (sink k) d).2.displays none := by
  unfold AttachesInTurn attachment? at h
  unfold Session.release
  cases ha : s.attached with
  | false =>
    rw [ha] at h
    exact h
  | true =>
    rw [ha] at h
    simp only [if_true, displays_detached]
    exact h.trans (.released .nil)

theorem release (h : AttachesInTurn s d) :
    AttachesInTurn (s.release (sink k) d).1 (s.release (sink k) d).2 := by
  rw [release_fst]
  exact h.turns_release

/-- Starting attaches, or tries to, once nothing is attached. -/
theorem start [Scalar K] [Scalar L] [Narrowing K L] (h : AttachesInTurn s d) (r : Renderer L β)
    (b : β) : AttachesInTurn (s.start r (sink k) b d).session (s.start r (sink k) b d).sink := by
  have hc := s.start_cases r (sink k) b d
  have hr := h.turns_release (k := k)
  generalize (s.release (sink k) d).2 = d₀ at hc hr
  generalize s.start r (sink k) b d = out at hc ⊢
  cases hc with
  | unprepared => exact hr
  | empty => exact hr
  | noTarget => exact hr
  | noProgram => exact hr
  | noDisplay _ _ _ _ ha =>
    have ht : Lease.Run none (d₀.displays ++ [.denied]) none := hr.trans (.denied .nil)
    rw [← displays_refused ha] at ht
    exact ht
  | started _ _ _ _ ha =>
    have ht : Lease.Run none (d₀.displays ++ [.acquired ()]) (some ()) :=
      hr.trans (.acquired .nil)
    rw [← displays_attached ha] at ht
    exact ht

/-- Rendering does not attach or detach anything. -/
theorem render (h : AttachesInTurn s d) (r : Renderer L β) (frame : SourceFrame L) (b : β) :
    AttachesInTurn (s.render r frame b).2.1 d := by
  obtain ⟨c, hs⟩ := s.render_session r frame b
  rw [hs]
  exact h

/-- Preparing does not attach or detach anything. -/
theorem prepare [Coefficient K] [Rotation K] (h : AttachesInTurn s d) (source : DisplaySource) :
    AttachesInTurn (s.prepare source).2 d := by
  obtain ⟨o, p, i, hs⟩ := s.prepare_session source
  rw [hs]
  exact h

end AttachesInTurn

variable [Coefficient K] [Rotation K] [Scalar L] [Narrowing K L]

/-- Every operation keeps the calls in turn. -/
theorem attachesInTurn_perform {r : Renderer L β} {k : Sink δ}
    (g : Rig K L β (Journaled SinkEvent δ)) (op : Operation L)
    (h : AttachesInTurn g.session g.sink) :
    AttachesInTurn (g.perform r (Journaled.sink k) op).2.session
      (g.perform r (Journaled.sink k) op).2.sink := by
  cases op with
  | prepare source => exact h.prepare source
  | setMaxSize | invalidate | notify => exact h
  | start => exact h.start r g.renderer
  | render frame => exact h.render r frame g.renderer
  | stop =>
    simp only [Rig.perform, stop_fst]
    exact h
  | release => exact h.release

/-- In every run on one sink, the calls that succeed attach and detach strictly in turn, an attachment
first. The sink is asked to detach only while a display is attached, and to attach only while none
is. The session knows whether the last call that succeeded was an attachment. -/
theorem display_attached_in_turn {o : Options K} {c : Capabilities} {s₀ : Session K L}
    (h₀ : new o c = .ok s₀) (r : Renderer L β) (k : Sink δ) (b₀ : β) (d₀ : δ)
    (l : List (Operation L)) :
    let g := Rig.run r (Journaled.sink k) ⟨s₀, b₀, ⟨d₀, []⟩⟩ l
    let calls := g.sink.displays
    (false :: Lease.successes calls).IsChain (· ≠ ·) ∧
      (∀ pre post, calls = pre ++ .released () :: post →
        (Lease.successes pre).getLast? = some true) ∧
      (∀ pre call post, calls = pre ++ call :: post → call ≠ .released () →
        (Lease.successes pre).getLast? ≠ some true) ∧
      (g.session.attached = true ↔ (Lease.successes calls).getLast? = some true) := by
  intro g calls
  have h : Lease.Run none calls g.session.attachment? := by
    refine Rig.run_inv (fun g => AttachesInTurn g.session g.sink) attachesInTurn_perform ?_ l
    rw [new_eq h₀]
    exact .nil
  refine ⟨h.isChain_successes, fun pre post he => ?_, fun pre call post he hn => ?_, ?_⟩
  · rw [he] at h
    exact h.before_released.isSome_iff.1 rfl
  · rw [he] at h
    have hp := h.before_asked fun _ => hn
    rw [Ne, ← hp.isSome_iff]
    exact Bool.false_ne_true
  · rw [← h.isSome_iff, isSome_attachment?]

/-! ## A capture stopped, started again and released -/

/-- What is left once a started session is stopped, started again and released. -/
def reattached : Rig Float Float32 Nat (Journaled SinkEvent FixedDisplay) :=
  Rig.run (.numbering Float32) (Journaled.sink FixedDisplay.sink) ⟨untouched, 1, ⟨smallDisplay, []⟩⟩
    [.prepare smallDisplay.source, .start, .stop, .start, .release]

theorem display_attached_in_turn_reattached :
    Lease.successes reattached.sink.displays = [true, false, true, false] ∧
      (false :: Lease.successes reattached.sink.displays).IsChain (· ≠ ·) ∧
      (reattached.session.attached = true ↔
        (Lease.successes reattached.sink.displays).getLast? = some true) := by
  obtain ⟨hc, -, -, ha⟩ := display_attached_in_turn new_untouched (.numbering Float32)
    FixedDisplay.sink 1 smallDisplay [.prepare smallDisplay.source, .start, .stop, .start, .release]
  exact ⟨rfl, hc, ha⟩

end RegionCapture.Session
