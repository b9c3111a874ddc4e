import RegionCapture.Proofs.Session.Effects
import RegionCapture.Scalar.Machine
/-!
# Runs of a session

A run is any list of operations, whatever they give. `Rig.run_inv` is the induction over runs: what
every operation keeps, every run keeps; and what a renderer keeps by itself, every run on it keeps
(`Renderer.Keeps.run`). `Rig.replies` lists what the operations of a run give.
-/

namespace RegionCapture

namespace Rig

variable {K L β δ : Type} [Coefficient K] [Rotation K] [Scalar L] [Narrowing K L]

/-- The operations of a run, each with what it gives. -/
def replies (r : Renderer L β) (k : Sink δ) (g : Rig K L β δ) :
    List (Operation L) → List (Operation L × Except Fault (Reply K))
  | [] => []
  | op :: l => (op, (g.perform r k op).1) :: replies r k (g.perform r k op).2 l

variable {r : Renderer L β} {k : Sink δ}

theorem run_append (g : Rig K L β δ) (l l' : List (Operation L)) :
    g.run r k (l ++ l') = (g.run r k l).run r k l' :=
  List.foldl_append

theorem replies_append (g : Rig K L β δ) (l l' : List (Operation L)) :
    g.replies r k (l ++ l') = g.replies r k l ++ (g.run r k l).replies r k l' := by
  induction l generalizing g with
  | nil => rfl
  | cons op l ih => simp only [List.cons_append, replies, ih]; rfl

/-- What every operation keeps, every run keeps. -/
theorem run_inv (I : Rig K L β δ → Prop) (hs : ∀ g op, I g → I (g.perform r k op).2)
    {g : Rig K L β δ} (h : I g) (l : List (Operation L)) : I (g.run r k l) := by
  induction l generalizing g with
  | nil => exact h
  | cons op l ih => exact ih (hs g op h)

end Rig

/-! ## What the renderer keeps -/

/-- A property that everything that can be asked of a renderer keeps. -/
structure Renderer.Keeps {L β : Type} (r : Renderer L β) (I : β → Prop) : Prop where
  createProgram : ∀ {p b result b'}, r.createProgram p b = (result, b') → I b → I b'
  deleteProgram : ∀ id {b}, I b → I (r.deleteProgram id b)
  perform : ∀ {c b result b'}, r.perform c b = (result, b') → I b → I b'

namespace Renderer.Keeps

variable {K L β δ : Type} {r : Renderer L β} {k : Sink δ} {I : β → Prop} {b b' : β}

theorem performAll (h : r.Keeps I) {l : List (Command L)} {result : Except Fault Unit}
    (hl : r.performAll l b = (result, b')) (hb : I b) : I b' := by
  induction l generalizing b with
  | nil =>
    cases hl
    exact hb
  | cons c l ih =>
    simp only [Renderer.performAll] at hl
    split at hl
    · next hc => exact ih hl (h.perform hc hb)
    · next hc =>
      cases hl
      exact h.perform hc hb

theorem draws (h : r.Keeps I) {frame : SourceFrame L} {c : Compositor L}
    {out : Except Fault Unit × Compositor L × β} (hd : c.Draws r frame b out) (hb : I b) :
    I out.2.2 := by
  cases hd with
  | spoiled | unready => exact hb
  | drawn _ _ commands unbind | failed _ _ commands unbind =>
    exact h.perform unbind (h.performAll commands hb)

theorem stop (h : r.Keeps I) (hb : I b) (s : Session K L) : I (s.stop r b).2 := by
  obtain ⟨_, _, _, _ | ⟨_, _ | id, _⟩, _, _⟩ := s
  · exact hb
  · exact hb
  · exact h.deleteProgram id hb

theorem start [Scalar K] [Scalar L] [Narrowing K L] (h : r.Keeps I) (hb : I b) (s : Session K L)
    (d : δ) : I (s.start r k b d).renderer := by
  have hc := s.start_cases r k b d
  have hs := h.stop hb s
  generalize s.start r k b d = out at hc ⊢
  cases hc with
  | unprepared | empty => exact hs
  | noTarget _ _ target => exact h.perform target hs
  | noProgram _ _ target program | started _ _ target program =>
    exact h.createProgram program (h.perform target hs)
  | noDisplay _ _ target program =>
    exact h.deleteProgram _ (h.createProgram program (h.perform target hs))

theorem render (h : r.Keeps I) (hb : I b) (frame : SourceFrame L) (s : Session K L) :
    I (s.render r frame b).2.2 := by
  have hc := s.render_cases r frame b
  generalize s.render r frame b = out at hc ⊢
  cases hc with
  | unstarted => exact hb
  | uncleared _ clear => exact h.perform clear hb
  | cleared _ clear draws => exact h.draws draws (h.perform clear hb)

variable [Coefficient K] [Rotation K] [Scalar L] [Narrowing K L]

theorem rig (h : r.Keeps I) {g : Rig K L β δ} (hg : I g.renderer) (op : Operation L) :
    I (g.perform r k op).2.renderer := by
  cases op with
  | prepare | setMaxSize | invalidate | notify | release => exact hg
  | start => exact h.start hg g.session g.sink
  | render frame => exact h.render hg frame g.session
  | stop => exact h.stop hg g.session

/-- What a renderer keeps by itself, every run on it keeps. -/
theorem run (h : r.Keeps I) {g : Rig K L β δ} (hg : I g.renderer) (l : List (Operation L)) :
    I (g.run r k l).renderer :=
  Rig.run_inv (fun g => I g.renderer) (fun _ op hg => h.rig hg op) hg l

end Renderer.Keeps

namespace Rig

variable {K L β δ : Type} [Coefficient K] [Rotation K] [Scalar L] [Narrowing K L]
variable {r : Renderer L β} {k : Sink δ}

/-! ## The last start -/

/-- In a run, the last start that succeeds: what is done before it and after it, and the plan that is
in force when it happens. -/
structure StartedOn (r : Renderer L β) (k : Sink δ) (g : Rig K L β δ) (l pre : List (Operation L))
    (plan : Plan K) (post : List (Operation L)) : Prop where
  split : l = pre ++ .start :: post
  planned : (g.run r k pre).session.plan = some plan
  succeeded : ∃ reply, ((g.run r k pre).perform r k .start).1 = .ok reply
  last : ∀ reply, (.start, .ok reply) ∉ (g.run r k (pre ++ [.start])).replies r k post

theorem StartedOn.run_eq {g : Rig K L β δ} {l pre post : List (Operation L)} {plan : Plan K}
    (h : StartedOn r k g l pre plan post) :
    (g.run r k (pre ++ [.start])).run r k post = g.run r k l := by
  rw [h.split, ← run_append, List.append_assoc]
  rfl

theorem replies_snoc (g : Rig K L β δ) (l : List (Operation L)) (op : Operation L) :
    g.replies r k (l ++ [op]) = g.replies r k l ++ [(op, ((g.run r k l).perform r k op).1)] :=
  replies_append g l [op]

theorem run_snoc (g : Rig K L β δ) (l : List (Operation L)) (op : Operation L) :
    g.run r k (l ++ [op]) = ((g.run r k l).perform r k op).2 :=
  run_append g l [op]

/-- Anything else that is done leaves the last start as it was. -/
theorem StartedOn.snoc {g : Rig K L β δ} {l pre post : List (Operation L)} {plan : Plan K}
    (h : StartedOn r k g l pre plan post) {op : Operation L} (ho : op ≠ .start) :
    StartedOn r k g (l ++ [op]) pre plan (post ++ [op]) where
  split := by rw [h.split, List.append_assoc, List.cons_append]
  planned := h.planned
  succeeded := h.succeeded
  last := by
    intro reply hm
    rw [replies_snoc, List.mem_append, List.mem_singleton, Prod.mk.injEq] at hm
    rcases hm with hm | ⟨hs, -⟩
    · exact h.last reply hm
    · exact ho hs.symm

end Rig

/-! ## A small capture -/

/-- A display of 16 by 8 pixels. -/
def smallDisplay : FixedDisplay := FixedDisplay.new 0 ⟨16, 8⟩ 0

/-- A display of 16 by 8 pixels that stands at a quarter turn. -/
def turnedDisplay : FixedDisplay := FixedDisplay.new 0 ⟨16, 8⟩ 1

/-- A session with standard options that nothing has been done with. -/
def untouched : Session Float Float32 :=
  ⟨Options.standard, ⟨false⟩, none, none, false, Invalidation.none⟩

theorem new_untouched : Session.new Options.standard ⟨false⟩ = .ok untouched := rfl

end RegionCapture
