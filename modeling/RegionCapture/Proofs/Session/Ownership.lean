import RegionCapture.Proofs.Session.Journal
import RegionCapture.Proofs.Session.Runs
/-!
# Who owns the programs

A session makes one program when it starts and deletes it when it stops, when it starts again, or
when starting fails after all. `OwnsPrograms` is what every operation keeps; `programs_owned` is what
follows for whole runs, however the renderer and the sink behave.
-/

namespace RegionCapture.Session

variable {K L β δ : Type}

/-- The program of the session's compositor. -/
def program? (s : Session K L) : Option Nat := s.compositor.bind Compositor.program

/-- Programs have been made and deleted in turn, and the one that is left is the session's. A
compositor in a session has a program. -/
structure OwnsPrograms (s : Session K L) (b : Journaled (RenderEvent L) β) : Prop where
  turns : Lease.Run none b.programs s.program?
  made : s.isStarted = s.program?.isSome

namespace OwnsPrograms

variable {r : Renderer L β} {s : Session K L} {b : Journaled (RenderEvent L) β}

open Journaled

/-- After a stop there is no program. -/
theorem turns_stop (h : OwnsPrograms s b) :
    Lease.Run none (s.stop (renderer r) b).2.programs none := by
  have ht := h.turns
  unfold program? at ht
  unfold Session.stop
  cases hc : s.compositor with
  | none =>
    rw [hc] at ht
    exact ht
  | some c =>
    rw [hc] at ht
    simp only [Option.bind_some, Compositor.release] at ht ⊢
    cases hp : c.program with
    | none =>
      rw [hp] at ht
      exact ht
    | some id =>
      rw [hp] at ht
      simp only [programs_deleted]
      exact ht.trans (.released .nil)

theorem stop (h : OwnsPrograms s b) :
    OwnsPrograms (s.stop (renderer r) b).1 (s.stop (renderer r) b).2 := by
  refine ⟨?_, by rw [stop_fst]; rfl⟩
  rw [stop_fst]
  exact h.turns_stop

theorem start [Scalar K] [Scalar L] [Narrowing K L] (h : OwnsPrograms s b) (k : Sink δ) (d : δ) :
    OwnsPrograms (s.start (renderer r) k b d).session (s.start (renderer r) k b d).renderer := by
  have hc := s.start_cases (renderer r) k b d
  have hs := h.turns_stop (r := r)
  generalize (s.stop (renderer r) b).2 = b₀ at hc hs
  generalize s.start (renderer r) k b d = out at hc ⊢
  cases hc with
  | unprepared => exact ⟨hs, rfl⟩
  | empty => exact ⟨hs, rfl⟩
  | noTarget _ _ ht =>
    rw [← programs_perform ht] at hs
    exact ⟨hs, rfl⟩
  | noProgram _ _ ht hp =>
    rw [← programs_perform ht] at hs
    exact ⟨programs_unmade hp ▸ hs.trans (.denied .nil), rfl⟩
  | noDisplay _ _ ht hp =>
    rw [← programs_perform ht] at hs
    -- the program is made, and deleted again as the display is refused
    have hm := programs_made hp ▸ hs.trans (.acquired .nil)
    exact ⟨programs_deleted (r := r) _ ▸ hm.trans (.released .nil), rfl⟩
  | started _ _ ht hp =>
    rw [← programs_perform ht] at hs
    exact ⟨programs_made hp ▸ hs.trans (.acquired .nil), rfl⟩

/-- Drawing keeps the program, whatever becomes of the phase. -/
theorem program_draws {c c' : Compositor L} {frame : SourceFrame L} {result : Except Fault Unit}
    {b' : Journaled (RenderEvent L) β} (h : c.Draws (renderer r) frame b (result, c', b')) :
    c'.program = c.program ∧ b'.programs = b.programs := by
  cases h with
  | spoiled => exact ⟨rfl, rfl⟩
  | unready => exact ⟨rfl, rfl⟩
  | drawn _ _ hl hu => exact ⟨rfl, (programs_perform hu).trans (programs_performAll hl)⟩
  | failed _ _ hl hu => exact ⟨rfl, (programs_perform hu).trans (programs_performAll hl)⟩

theorem render (h : OwnsPrograms s b) (frame : SourceFrame L) :
    OwnsPrograms (s.render (renderer r) frame b).2.1 (s.render (renderer r) frame b).2.2 := by
  have hc := s.render_cases (renderer r) frame b
  generalize s.render (renderer r) frame b = out at hc ⊢
  cases hc with
  | unstarted => exact h
  | uncleared _ hb => exact ⟨programs_perform hb ▸ h.turns, h.made⟩
  | @cleared c c' _ b₁ b₂ hr hb hd =>
    obtain ⟨hp, hb'⟩ := program_draws hd
    have hs : s.program? = c'.program := by
      rw [program?, hr, hp]
      rfl
    have ht : Lease.Run none b₂.programs s.program? := by
      rw [hb', programs_perform hb]
      exact h.turns
    have hm : s.isStarted = s.program?.isSome := h.made
    rw [isStarted, hr] at hm
    rw [hs] at ht hm
    exact ⟨ht, hm⟩

theorem prepare [Coefficient K] [Rotation K] (h : OwnsPrograms s b) (source : DisplaySource) :
    OwnsPrograms (s.prepare source).2 b := by
  obtain ⟨o, p, i, hs⟩ := s.prepare_session source
  rw [hs]
  exact ⟨h.turns, h.made⟩

end OwnsPrograms

variable [Coefficient K] [Rotation K] [Scalar L] [Narrowing K L]

/-- Every operation keeps the programs owned. -/
theorem ownsPrograms_perform {r : Renderer L β} {k : Sink δ}
    (g : Rig K L (Journaled (RenderEvent L) β) δ) (op : Operation L)
    (h : OwnsPrograms g.session g.renderer) :
    OwnsPrograms (g.perform (Journaled.renderer r) k op).2.session
      (g.perform (Journaled.renderer r) k op).2.renderer := by
  cases op with
  | prepare source => exact h.prepare source
  | setMaxSize | invalidate | notify => exact ⟨h.turns, h.made⟩
  | start => exact h.start k g.sink
  | render frame => exact h.render frame
  | stop => exact h.stop
  | release =>
    simp only [Rig.perform, release_fst]
    exact ⟨h.turns, h.made⟩

/-- In every run on one renderer that never gives out an id twice, the programs made and not deleted
are the one of the compositor while the session is started, and none while it is not. No program is
deleted twice or without having been made, and at no moment there are two. -/
theorem programs_owned {o : Options K} {c : Capabilities} {s₀ : Session K L}
    (h₀ : new o c = .ok s₀) (r : Renderer L β) (k : Sink δ) (b₀ : β) (d₀ : δ)
    (l : List (Operation L)) :
    let g := Rig.run (Journaled.renderer r) k ⟨s₀, ⟨b₀, []⟩, d₀⟩ l
    let turns := g.renderer.programs
    (Lease.acquisitions turns).Nodup →
      (g.session.isStarted = true → ∃ c id, g.session.compositor = some c ∧ c.program = some id ∧
        Lease.outstanding turns = [id]) ∧
      (g.session.isStarted = false → Lease.outstanding turns = []) ∧
      (Lease.releases turns).Nodup ∧
      (∀ pre id post, turns = pre ++ .released id :: post → id ∈ Lease.acquisitions pre) ∧
      ∀ pre, pre <+: turns → (Lease.outstanding pre).length ≤ 1 := by
  intro g turns hn
  have h : OwnsPrograms g.session g.renderer := by
    refine Rig.run_inv (fun g => OwnsPrograms g.session g.renderer) ownsPrograms_perform ?_ l
    rw [new_eq h₀]
    exact ⟨.nil, rfl⟩
  have ho := h.turns.outstanding_eq hn
  refine ⟨fun hs => ?_, fun hs => ?_, h.turns.nodup_releases hn, fun pre id post he => ?_,
    fun pre hp => ?_⟩
  · rw [h.made, Option.isSome_iff_exists] at hs
    obtain ⟨id, hid⟩ := hs
    obtain ⟨c, hc, hi⟩ := Option.bind_eq_some_iff.1 hid
    exact ⟨c, id, hc, hi, by rw [ho, hid]; rfl⟩
  · rw [h.made, Option.isSome_eq_false_iff, Option.isNone_iff_eq_none] at hs
    rw [ho, hs]
    rfl
  · have ht : Lease.Run none turns g.session.program? := h.turns
    rw [he] at ht
    exact ht.mem_acquisitions
  · obtain ⟨post, he⟩ := hp
    have ht : Lease.Run none turns g.session.program? := h.turns
    rw [← he] at ht hn
    exact ht.length_outstanding_le hn

/-! ## A capture started twice -/

/-- What is left once the small display is prepared for and the session started twice. -/
def restarted : Rig Float Float32 (Journaled (RenderEvent Float32) Nat) FixedDisplay :=
  Rig.run (Journaled.renderer (.numbering Float32)) FixedDisplay.sink
    ⟨untouched, ⟨1, []⟩, smallDisplay⟩ [.prepare smallDisplay.source, .start, .start]

theorem programs_owned_restarted :
    Lease.acquisitions restarted.renderer.programs = [1, 2] ∧
      Lease.releases restarted.renderer.programs = [1] ∧
      ∃ c id, restarted.session.compositor = some c ∧ c.program = some id ∧
        Lease.outstanding restarted.renderer.programs = [id] := by
  have ha : Lease.acquisitions restarted.renderer.programs = [1, 2] := rfl
  have hn : (Lease.acquisitions restarted.renderer.programs).Nodup := by
    rw [ha]
    decide
  exact ⟨ha, rfl, (programs_owned new_untouched (.numbering Float32) FixedDisplay.sink 1 smallDisplay
    [.prepare smallDisplay.source, .start, .start] hn).1 rfl⟩

end RegionCapture.Session
