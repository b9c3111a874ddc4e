import RegionCapture.Frame
import RegionCapture.Layout
import RegionCapture.Program
/-!
# Renderers

The drawing commands that a capture needs, and what carries them out. Commands set state first and
draw later; each may fail, and a failing command says why.
-/

namespace RegionCapture

/-- Something done to a state: it gives a result or a fault, and leaves the state changed. -/
abbrev Action (σ α : Type) := σ → Except Fault α × σ

/-- A drawing command. -/
inductive Command (L : Type) where
  /-- Have a target of this size; what it shows is open until it is cleared. -/
  | ensureTarget (size : Size)
  | clearTarget (color : Rgba)
  | useProgram (id : Nat)
  | bindInput (texture : Frame)
  | setTexMatrix (m : Mat4 L)
  | setUserMatrix (m : Mat4 L)
  | setViewport (v : Viewport)
  /-- Draw the quad over the viewport with everything as it is set. -/
  | drawQuad
  /-- Let go of the input and the program. -/
  | unbind

/-- The name of a command, as logs and reports show it. -/
def Command.name {L : Type} : Command L → String
  | .ensureTarget _ => "ensure_target"
  | .clearTarget _ => "clear_target"
  | .useProgram _ => "use_program"
  | .bindInput _ => "bind_input"
  | .setTexMatrix _ => "set_tex_matrix"
  | .setUserMatrix _ => "set_user_matrix"
  | .setViewport _ => "set_viewport"
  | .drawQuad => "draw_quad"
  | .unbind => "unbind"

/-- What carries out drawing commands over states `σ`. -/
structure Renderer (L σ : Type) where
  /-- Make a program; its id is the result. -/
  createProgram : Program → Action σ Nat
  /-- Delete a program; this never fails. -/
  deleteProgram : Nat → σ → σ
  /-- Carry out a command. -/
  perform : Command L → Action σ Unit
  /-- What the target shows. -/
  readBack : σ → Except Fault Canvas

/-- Commands carried out one after the other, up to the first that fails. -/
def Renderer.performAll {L σ : Type} (r : Renderer L σ) : List (Command L) → Action σ Unit
  | [], s => (.ok (), s)
  | c :: rest, s =>
    match r.perform c s with
    | (.ok (), s) => r.performAll rest s
    | (.error e, s) => (.error e, s)

/-- The renderers there are. -/
inductive RendererKind where
  | cpu
  deriving DecidableEq, Repr

namespace RendererKind

/-- The name that documents use. -/
def name : RendererKind → String
  | .cpu => "cpu"

/-- The renderer with a name. -/
def ofName? (name : String) : Option RendererKind := if name = "cpu" then some .cpu else none

end RendererKind

end RegionCapture
