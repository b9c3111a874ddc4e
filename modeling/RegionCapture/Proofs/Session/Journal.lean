import RegionCapture.Display
import RegionCapture.Proofs.Lease
import RegionCapture.Renderer
/-!
# Journals

Any renderer and any sink, with a journal of the calls made to it and what came of each. The answers
are those of the renderer or sink inside, so every pattern of failures is some choice of these. Of a
journal, `programs` and `displays` keep the calls that acquire or release something.
-/

namespace RegionCapture

/-- A call to a renderer and what came of it. -/
inductive RenderEvent (L : Type) where
  | made (id : Nat)
  | unmade (e : Fault)
  | deleted (id : Nat)
  | done (c : Command L)
  | failed (c : Command L) (e : Fault)

/-- A call to a sink and what came of it. -/
inductive SinkEvent where
  | attached (display : DisplayState) (surface : Size)
  | refused (display : DisplayState) (surface : Size)
  | detached
  deriving DecidableEq, Repr

/-- What the event does to the programs there are. -/
def RenderEvent.lease? {L : Type} : RenderEvent L → Option (Lease Nat)
  | made id => some (.acquired id)
  | unmade _ => some .denied
  | deleted id => some (.released id)
  | done _ | failed _ _ => none

/-- What the event does to the display being attached. -/
def SinkEvent.lease : SinkEvent → Lease Unit
  | attached _ _ => .acquired ()
  | refused _ _ => .denied
  | detached => .released ()

/-- A state and the journal of what was done to it. -/
structure Journaled (E σ : Type) where
  inner : σ
  journal : List E

namespace Journaled

variable {L σ : Type}

/-! ## Renderers -/

/-- A renderer that writes down what it is asked for and what comes of it. Reading back changes nothing
and is not written down. -/
def renderer (r : Renderer L σ) : Renderer L (Journaled (RenderEvent L) σ) where
  createProgram p s :=
    match r.createProgram p s.inner with
    | (.ok id, inner) => (.ok id, ⟨inner, s.journal ++ [.made id]⟩)
    | (.error e, inner) => (.error e, ⟨inner, s.journal ++ [.unmade e]⟩)
  deleteProgram id s := ⟨r.deleteProgram id s.inner, s.journal ++ [.deleted id]⟩
  perform c s :=
    match r.perform c s.inner with
    | (.ok (), inner) => (.ok (), ⟨inner, s.journal ++ [.done c]⟩)
    | (.error e, inner) => (.error e, ⟨inner, s.journal ++ [.failed c e]⟩)
  readBack s := r.readBack s.inner

/-- The programs made and deleted so far. -/
def programs (s : Journaled (RenderEvent L) σ) : List (Lease Nat) :=
  s.journal.filterMap RenderEvent.lease?

variable {r : Renderer L σ} {s s' : Journaled (RenderEvent L) σ}

theorem programs_made {p : Program} {id : Nat} (h : (renderer r).createProgram p s = (.ok id, s')) :
    s'.programs = s.programs ++ [.acquired id] := by
  simp only [renderer] at h
  split at h <;> cases h
  simp [programs, RenderEvent.lease?]

theorem programs_unmade {p : Program} {e : Fault}
    (h : (renderer r).createProgram p s = (.error e, s')) :
    s'.programs = s.programs ++ [.denied] := by
  simp only [renderer] at h
  split at h <;> cases h
  simp [programs, RenderEvent.lease?]

theorem programs_deleted (id : Nat) :
    ((renderer r).deleteProgram id s).programs = s.programs ++ [.released id] := by
  simp [renderer, programs, RenderEvent.lease?]

theorem programs_perform {c : Command L} {result : Except Fault Unit}
    (h : (renderer r).perform c s = (result, s')) : s'.programs = s.programs := by
  simp only [renderer] at h
  split at h <;> cases h <;> simp [programs, RenderEvent.lease?]

theorem programs_performAll {l : List (Command L)} {result : Except Fault Unit}
    (h : (renderer r).performAll l s = (result, s')) : s'.programs = s.programs := by
  induction l generalizing s with
  | nil => cases h; rfl
  | cons c l ih =>
    simp only [Renderer.performAll] at h
    split at h
    · next s₁ hc => rw [ih h, programs_perform hc]
    · next e s₁ hc => cases h; exact programs_perform hc

/-! ## Sinks -/

variable {δ : Type}

/-- A sink that writes down what it is asked for and what comes of it. -/
def sink (k : Sink δ) : Sink (Journaled SinkEvent δ) where
  attach display surface s :=
    match k.attach display surface s.inner with
    | (.ok virtual, inner) => (.ok virtual, ⟨inner, s.journal ++ [.attached display surface]⟩)
    | (.error e, inner) => (.error e, ⟨inner, s.journal ++ [.refused display surface]⟩)
  detach s := ⟨k.detach s.inner, s.journal ++ [.detached]⟩

/-- The attachments made, refused and undone so far. -/
def displays (s : Journaled SinkEvent δ) : List (Lease Unit) := s.journal.map SinkEvent.lease

variable {k : Sink δ} {d d' : Journaled SinkEvent δ} {display : DisplayState} {surface : Size}

theorem displays_attached {virtual : Option Nat}
    (h : (sink k).attach display surface d = (.ok virtual, d')) :
    d'.displays = d.displays ++ [.acquired ()] := by
  simp only [sink] at h
  split at h <;> cases h
  simp [displays, SinkEvent.lease]

theorem displays_refused {e : Fault} (h : (sink k).attach display surface d = (.error e, d')) :
    d'.displays = d.displays ++ [.denied] := by
  simp only [sink] at h
  split at h <;> cases h
  simp [displays, SinkEvent.lease]

theorem displays_detached : ((sink k).detach d).displays = d.displays ++ [.released ()] := by
  simp [sink, displays, SinkEvent.lease]

end Journaled

/-! ## A renderer that draws nothing -/

/-- A renderer that numbers its programs and carries out every command by doing nothing. -/
def Renderer.numbering (L : Type) : Renderer L Nat where
  createProgram _ next := (.ok next, next + 1)
  deleteProgram _ next := next
  perform _ next := (.ok (), next)
  readBack _ := .error .readWithoutTarget

end RegionCapture
