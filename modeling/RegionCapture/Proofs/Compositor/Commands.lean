import RegionCapture.Proofs.Session.Effects
import RegionCapture.Proofs.Session.Journal
/-!
# What a compositor asks of its renderer

A compositor on any renderer, with a journal of every call: made for a layout, then asked to make its
program and to draw frames, in any order. `Compositor.InTurn` is what every request keeps, and
`Compositor.Orderly` says what a request does to the journal; it holds before every request of every
run (`orderly_run`), whatever fails.
-/

namespace RegionCapture

variable {K L σ : Type}

/-! ## Commands up to the first that fails -/

/-- The entry of a command, from its result. -/
def RenderEvent.ofResult (c : Command L) : Except Fault Unit → RenderEvent L
  | .ok () => .done c
  | .error e => .failed c e

/-- The entries of commands carried out one after the other up to the first that fails, and the result
of it all. -/
inductive Issued : List (Command L) → List (RenderEvent L) → Except Fault Unit → Prop
  | nil : Issued [] [] (.ok ())
  | done {c l events result} (rest : Issued l events result) :
      Issued (c :: l) (.done c :: events) result
  | failed {c l e} : Issued (c :: l) [.failed c e] (.error e)

/-- The first fault of two steps that are both taken. -/
def firstFault : Except Fault Unit → Except Fault Unit → Except Fault Unit
  | .error e, _ => .error e
  | .ok (), result => result

/-- Everything that drawing a frame through a layout takes: program, input and texture matrix once,
then for each region that is not empty its viewport, its own matrix, and the quad. -/
def Layout.commands [Scalar L] [Narrowing K L] (l : Layout K) (program : Nat)
    (frame : SourceFrame L) : List (Command L) :=
  [.useProgram program, .bindInput frame.texture, .setTexMatrix frame.matrix] ++
    l.placements.flatMap fun p =>
      match p.viewport with
      | none => []
      | some v => [.setViewport v, .setUserMatrix p.inverse.toMat4, .drawQuad]

namespace Journaled

variable {r : Renderer L σ} {s s' : Journaled (RenderEvent L) σ}

theorem journal_perform {c : Command L} {result : Except Fault Unit}
    (h : (renderer r).perform c s = (result, s')) :
    s'.journal = s.journal ++ [.ofResult c result] := by
  simp only [renderer] at h
  split at h <;> cases h <;> rfl

theorem journal_performAll {l : List (Command L)} {result : Except Fault Unit}
    (h : (renderer r).performAll l s = (result, s')) :
    ∃ events, s'.journal = s.journal ++ events ∧ Issued l events result := by
  induction l generalizing s with
  | nil =>
    cases h
    exact ⟨[], by simp, .nil⟩
  | cons c l ih =>
    simp only [Renderer.performAll] at h
    split at h
    · next s₁ hc =>
      obtain ⟨events, hj, hi⟩ := ih h
      refine ⟨.done c :: events, ?_, .done hi⟩
      rw [hj, journal_perform hc, List.append_assoc]
      rfl
    · next e s₁ hc =>
      cases h
      exact ⟨[.failed c e], journal_perform hc, .failed⟩

theorem journal_made {p : Program} {id : Nat} (h : (renderer r).createProgram p s = (.ok id, s')) :
    s'.journal = s.journal ++ [.made id] := by
  simp only [renderer] at h
  split at h <;> cases h
  rfl

theorem journal_unmade {p : Program} {e : Fault}
    (h : (renderer r).createProgram p s = (.error e, s')) :
    s'.journal = s.journal ++ [.unmade e] := by
  simp only [renderer] at h
  split at h <;> cases h
  rfl

end Journaled

namespace Compositor

open Journaled

variable {r : Renderer L σ} {c : Compositor L} {b : Journaled (RenderEvent L) σ}

/-! ## Requests -/

/-- What a compositor can be asked for. -/
inductive Request (L : Type) where
  | init
  | draw (frame : SourceFrame L)

/-- What a request gives, and the compositor and its renderer after it. -/
def answer (r : Renderer L σ) (c : Compositor L) (b : σ) :
    Request L → Except Fault Unit × Compositor L × σ
  | .init => c.init r b
  | .draw frame => c.draw r frame b

/-- The compositor and its renderer after some requests, whatever came of them. -/
def answerAll (r : Renderer L σ) (c : Compositor L) (b : σ) (l : List (Request L)) :
    Compositor L × σ :=
  l.foldl (fun s request => (answer r s.1 s.2 request).2) (c, b)

/-- Drawing changes nothing of a compositor but its phase, and that only from initialized to drawing.
No program is made or deleted. -/
theorem Draws.kept {frame : SourceFrame L}
    {out : Except Fault Unit × Compositor L × Journaled (RenderEvent L) σ}
    (h : c.Draws (renderer r) frame b out) :
    out.2.1.draws = c.draws ∧ out.2.1.program = c.program ∧ out.2.2.programs = b.programs ∧
      (out.2.1.phase = c.phase ∨ c.phase = .initialized ∧ out.2.1.phase = .drawing) := by
  cases h with
  | spoiled => exact ⟨rfl, rfl, rfl, .inl rfl⟩
  | unready => exact ⟨rfl, rfl, rfl, .inl rfl⟩
  | drawn _ _ hl hu =>
    exact ⟨rfl, rfl, (programs_perform hu).trans (programs_performAll hl), .inl rfl⟩
  | failed hp _ hl hu =>
    exact ⟨rfl, rfl, (programs_perform hu).trans (programs_performAll hl), .inr ⟨hp, rfl⟩⟩

/-- How making the program ends. -/
theorem init_cases (hp : c.phase = .uninitialized) :
    (∃ id b', c.init (renderer r) b =
        (.ok (), { c with program := some id, phase := .initialized }, b') ∧
        b'.journal = b.journal ++ [.made id]) ∨
      ∃ e b', c.init (renderer r) b = (.error e, c, b') ∧
        b'.journal = b.journal ++ [.unmade e] := by
  simp only [init, hp, ne_eq, not_true_eq_false, if_false]
  rcases hc : (renderer r).createProgram .regions b with ⟨e | id, b'⟩
  · exact .inr ⟨e, b', rfl, journal_unmade hc⟩
  · exact .inl ⟨id, b', rfl, journal_made hc⟩

theorem init_again (hp : c.phase ≠ .uninitialized) :
    c.init (renderer r) b = (.error .alreadyInitialized, c, b) := by
  simp only [init, ne_eq, hp, not_false_eq_true, if_true]

/-- Before the program is made, and after drawing has failed, a frame is refused. -/
theorem draw_refused (hp : c.phase ≠ .initialized) (frame : SourceFrame L) :
    ∃ e, c.draw (renderer r) frame b = (.error e, c, b) := by
  have hd := c.draw_cases (renderer r) frame b
  generalize c.draw (renderer r) frame b = out at hd ⊢
  cases hd with
  | spoiled => exact ⟨_, rfl⟩
  | unready => exact ⟨_, rfl⟩
  | drawn hi => exact absurd hi hp
  | failed hi => exact absurd hi hp

/-- A compositor whose drawing has failed stays as it is, and asks nothing of its renderer. -/
theorem answerAll_of_drawing (hp : c.phase = .drawing) (requests : List (Request L)) :
    c.answerAll (renderer r) b requests = (c, b) := by
  induction requests with
  | nil => rfl
  | cons request requests ih =>
    have h : (c.answer (renderer r) b request).2 = (c, b) := by
      cases request with
      | init => rw [answer, init_again (by simp [hp])]
      | draw frame =>
        have hn : c.phase ≠ .initialized := by simp [hp]
        obtain ⟨e, he⟩ := draw_refused (r := r) (b := b) hn frame
        rw [answer, he]
    rw [answerAll, List.foldl_cons, h]
    exact ih

/-! ## What every request keeps -/

variable [Scalar L] [Narrowing K L] {l : Layout K}

/-- A compositor of a layout draws its regions. It has the program that was made, if one was made, and
has deleted none. -/
structure InTurn (l : Layout K) (c : Compositor L) (b : Journaled (RenderEvent L) σ) : Prop where
  draws : c.draws = (Compositor.new l).draws
  made : Lease.acquisitions b.programs = c.program.toList
  kept : Lease.releases b.programs = []
  unmade : c.phase = .uninitialized ↔ c.program = none

theorem flatMap_regionCommands (placements : List (Placement K)) :
    (placements.filterMap drawOf).flatMap regionCommands = placements.flatMap fun p =>
      match p.viewport with
      | none => []
      | some v => [Command.setViewport v, .setUserMatrix p.inverse.toMat4, .drawQuad] := by
  induction placements with
  | nil => rfl
  | cons p placements ih =>
    rw [List.flatMap_cons, ← ih, List.filterMap_cons]
    cases hp : p.viewport with
    | none => simp [drawOf, hp]
    | some v => simp [drawOf, hp, regionCommands]

namespace InTurn

theorem frameCommands_eq (h : InTurn l c b) (id : Nat) (frame : SourceFrame L) :
    c.frameCommands id frame = l.commands id frame := by
  rw [frameCommands, h.draws, new, flatMap_regionCommands]
  rfl

theorem draw (h : InTurn l c b) (frame : SourceFrame L) :
    InTurn l (c.draw (renderer r) frame b).2.1 (c.draw (renderer r) frame b).2.2 := by
  have hd := c.draw_cases (renderer r) frame b
  generalize c.draw (renderer r) frame b = out at hd ⊢
  obtain ⟨hdraws, hprogram, hprograms, hphase⟩ := hd.kept
  refine ⟨hdraws.trans h.draws, ?_, ?_, ?_⟩
  · rw [hprograms, hprogram]
    exact h.made
  · rw [hprograms]
    exact h.kept
  · rw [hprogram, ← h.unmade]
    rcases hphase with hp | ⟨hi, hd⟩
    · rw [hp]
    · simp [hi, hd]

theorem init (h : InTurn l c b) :
    InTurn l (c.init (renderer r) b).2.1 (c.init (renderer r) b).2.2 := by
  by_cases hp : c.phase = .uninitialized
  · have hm := h.made
    have hk := h.kept
    rw [h.unmade.1 hp, Option.toList_none] at hm
    obtain ⟨id, b', he, hj⟩ | ⟨e, b', he, hj⟩ := init_cases (r := r) (b := b) hp
    · have hb : b'.programs = b.programs ++ [.acquired id] := by
        simp [programs, hj, RenderEvent.lease?]
      rw [he]
      refine ⟨h.draws, ?_, ?_, by simp⟩
      · rw [hb, Lease.acquisitions, List.filterMap_append, ← Lease.acquisitions, hm]
        rfl
      · rw [hb, Lease.releases, List.filterMap_append, ← Lease.releases, hk]
        rfl
    · have hb : b'.programs = b.programs ++ [.denied] := by
        simp [programs, hj, RenderEvent.lease?]
      rw [he]
      refine ⟨h.draws, ?_, ?_, h.unmade⟩
      · rw [hb, Lease.acquisitions, List.filterMap_append, ← Lease.acquisitions, h.made]
        exact List.append_nil _
      · rw [hb, Lease.releases, List.filterMap_append, ← Lease.releases, hk]
        rfl
  · rw [init_again hp]
    exact h

theorem answer (h : InTurn l c b) (request : Request L) :
    InTurn l (c.answer (renderer r) b request).2.1 (c.answer (renderer r) b request).2.2 := by
  cases request with
  | init => exact h.init
  | draw frame => exact h.draw frame

theorem answerAll (h : InTurn l c b) (requests : List (Request L)) :
    InTurn l (c.answerAll (renderer r) b requests).1 (c.answerAll (renderer r) b requests).2 := by
  induction requests generalizing c b with
  | nil => exact h
  | cons request requests ih => exact ih (h.answer request)

end InTurn

/-! ## What a request does -/

/-- What the next request to the compositor of a layout does to the journal. -/
structure Orderly (l : Layout K) (r : Renderer L σ) (c : Compositor L)
    (b : Journaled (RenderEvent L) σ) : Prop where
  /-- A frame is drawn by the commands of the layout with the program that was made, up to the first
  that fails, and then let go of. The first fault is the result, and after one the phase is drawing. -/
  draw : c.phase = .initialized → ∀ frame, ∃ id events result released b',
    Lease.acquisitions b.programs = [id] ∧ Issued (l.commands id frame) events result ∧
    b'.journal = b.journal ++ events ++ [.ofResult .unbind released] ∧
    c.draw (renderer r) frame b = (firstFault result released,
      { c with phase := if (firstFault result released).isOk then .initialized else .drawing }, b')
  /-- In any other phase a frame is refused without a call. -/
  refuse : c.phase ≠ .initialized → ∀ frame, ∃ e, c.draw (renderer r) frame b = (.error e, c, b)
  /-- Drawing is never left, and nothing is called any more. -/
  spoiled : c.phase = .drawing → ∀ requests, c.answerAll (renderer r) b requests = (c, b)
  /-- The program is asked for once; if it cannot be made, all stays as it is. -/
  init : c.phase = .uninitialized →
    (∃ id b', c.init (renderer r) b =
      (.ok (), { c with program := some id, phase := .initialized }, b') ∧
      b'.journal = b.journal ++ [.made id]) ∨
    ∃ e b', c.init (renderer r) b = (.error e, c, b') ∧ b'.journal = b.journal ++ [.unmade e]
  /-- Later it is not asked for again. -/
  initOnce : c.phase ≠ .uninitialized →
    c.init (renderer r) b = (.error .alreadyInitialized, c, b)
  /-- One program has been made once the compositor is no longer uninitialized, and none before. -/
  made : (Lease.acquisitions b.programs).length = if c.phase = .uninitialized then 0 else 1
  kept : Lease.releases b.programs = []
  /-- The program is deleted in the end exactly if one was made. -/
  release : (c.release (renderer r) b).journal =
    b.journal ++ (Lease.acquisitions b.programs).map .deleted

namespace InTurn

theorem draw_initialized (h : InTurn l c b) (hp : c.phase = .initialized) (frame : SourceFrame L) :
    ∃ id events result released b',
      Lease.acquisitions b.programs = [id] ∧ Issued (l.commands id frame) events result ∧
      b'.journal = b.journal ++ events ++ [.ofResult .unbind released] ∧
      c.draw (renderer r) frame b = (firstFault result released,
        { c with phase := if (firstFault result released).isOk then .initialized else .drawing },
        b') := by
  have hd := c.draw_cases (renderer r) frame b
  generalize c.draw (renderer r) frame b = out at hd ⊢
  cases hd with
  | spoiled hs =>
    rw [hs] at hp
    cases hp
  | unready _ hn =>
    have hu := h.unmade.2 (hn hp)
    rw [hp] at hu
    cases hu
  | @drawn id b₁ b₂ _ hid hl hu =>
    obtain ⟨events, hj, hi⟩ := journal_performAll hl
    rw [h.frameCommands_eq] at hi
    refine ⟨id, events, _, .ok (), b₂, by rw [h.made, hid]; rfl, hi, ?_, ?_⟩
    · rw [journal_perform hu, hj]
    · have hc : { c with phase := CompositorPhase.initialized } = c := by rw [← hp]
      exact congrArg (fun c' => (Except.ok (), c', b₂)) hc.symm
  | @failed id result released e b₁ b₂ _ hid hl hu first =>
    obtain ⟨events, hj, hi⟩ := journal_performAll hl
    rw [h.frameCommands_eq] at hi
    have hf : firstFault result released = .error e := by
      rcases first with rfl | ⟨rfl, rfl⟩ <;> rfl
    refine ⟨id, events, result, released, b₂, by rw [h.made, hid]; rfl, hi, ?_, ?_⟩
    · rw [journal_perform hu, hj]
    · rw [hf]
      rfl

theorem length_acquisitions (h : InTurn l c b) :
    (Lease.acquisitions b.programs).length = if c.phase = .uninitialized then 0 else 1 := by
  rw [h.made]
  split
  · next hp => rw [h.unmade.1 hp]; rfl
  · next hp =>
    rw [h.unmade] at hp
    obtain ⟨id, hid⟩ := Option.ne_none_iff_exists'.1 hp
    rw [hid]
    rfl

theorem release (h : InTurn l c b) : (c.release (renderer r) b).journal =
    b.journal ++ (Lease.acquisitions b.programs).map .deleted := by
  rw [h.made]
  unfold Compositor.release
  cases c.program with
  | none => exact (List.append_nil _).symm
  | some id => rfl

end InTurn

/-- On any renderer, whatever a compositor of a layout has been asked so far and whatever has failed,
its next request is orderly. -/
theorem orderly_run (l : Layout K) (r : Renderer L σ) (b₀ : σ) (requests : List (Request L)) :
    let s := (Compositor.new l : Compositor L).answerAll (renderer r) ⟨b₀, []⟩ requests
    Orderly l r s.1 s.2 := by
  intro s
  have h₀ : InTurn l (Compositor.new l : Compositor L) (⟨b₀, []⟩ : Journaled (RenderEvent L) σ) :=
    ⟨rfl, rfl, rfl, ⟨fun _ => rfl, fun _ => rfl⟩⟩
  have h : InTurn l s.1 s.2 := h₀.answerAll requests
  exact ⟨h.draw_initialized, draw_refused, answerAll_of_drawing, init_cases, init_again,
    h.length_acquisitions, h.kept, h.release⟩

end Compositor

end RegionCapture
