import RegionCapture.Program.Regions
import RegionCapture.Renderer
/-!
# The compositor

Draws every region of a layout out of one frame, each into its viewport, with one program for all.
A compositor whose drawing once failed draws no more.
-/

namespace RegionCapture

/-- What a compositor is ready for. -/
inductive CompositorPhase where
  | uninitialized
  | initialized
  /-- A draw is under way, or one has failed. -/
  | drawing
  deriving DecidableEq, Repr

/-- The name of a phase. -/
def CompositorPhase.name : CompositorPhase → String
  | .uninitialized => "Uninitialized"
  | .initialized => "Initialized"
  | .drawing => "Drawing"

/-- A region as it is drawn. -/
structure RegionDraw (L : Type) where
  viewport : Viewport
  matrix : Mat4 L
  deriving DecidableEq, Repr

/-- The regions to draw, the program if there is one, and the phase. -/
structure Compositor (L : Type) where
  draws : List (RegionDraw L)
  program : Option Nat
  phase : CompositorPhase

namespace Compositor

variable {K L σ : Type} [Scalar L] [Narrowing K L]

/-- A region of a layout as it is drawn; nothing if it is empty. -/
def drawOf (p : Placement K) : Option (RegionDraw L) :=
  p.viewport.map fun v => ⟨v, p.inverse.toMat4⟩

/-- A compositor for a layout, not yet initialized. -/
def new (l : Layout K) : Compositor L := ⟨l.placements.filterMap drawOf, none, .uninitialized⟩

omit [Scalar L] [Narrowing K L]

/-- Make the program. -/
def init (r : Renderer L σ) (c : Compositor L) (b : σ) : Except Fault Unit × Compositor L × σ :=
  if c.phase ≠ .uninitialized then (.error .alreadyInitialized, c, b)
  else match r.createProgram .regions b with
    | (.error e, b) => (.error e, c, b)
    | (.ok id, b) => (.ok (), { c with program := some id, phase := .initialized }, b)

/-- The commands for one region. -/
def regionCommands (d : RegionDraw L) : List (Command L) :=
  [.setViewport d.viewport, .setUserMatrix d.matrix, .drawQuad]

/-- The commands for a frame, up to letting go of it. -/
def frameCommands (c : Compositor L) (program : Nat) (frame : SourceFrame L) : List (Command L) :=
  [.useProgram program, .bindInput frame.texture, .setTexMatrix frame.matrix]
    ++ c.draws.flatMap regionCommands

/-- Draw all regions of a frame. Whatever happens, input and program are let go of at the end; the
first fault is the one reported, and after it nothing is drawn any more. -/
def draw (r : Renderer L σ) (frame : SourceFrame L) (c : Compositor L) (b : σ) :
    Except Fault Unit × Compositor L × σ :=
  match c.phase, c.program with
  | .initialized, some program =>
    let (drawn, b) := r.performAll (c.frameCommands program frame) b
    let (released, b) := r.perform .unbind b
    match drawn, released with
    | .ok (), .ok () => (.ok (), c, b)
    | .ok (), .error e => (.error e, { c with phase := .drawing }, b)
    | .error e, _ => (.error e, { c with phase := .drawing }, b)
  | .drawing, _ => (.error .failedEarlier, c, b)
  | _, _ => (.error .notInitialized, c, b)

/-- Delete the program. -/
def release (r : Renderer L σ) (c : Compositor L) (b : σ) : σ :=
  match c.program with
  | some id => r.deleteProgram id b
  | none => b

end Compositor

end RegionCapture
