import RegionCapture.Display
import RegionCapture.Renderer
/-!
# Recorders

A renderer and a sink behind a log. Every call is written down before it goes through, and chosen
calls can be made to fail without going through at all.
-/

namespace RegionCapture

/-- A call to a renderer. -/
inductive RenderCall (L : Type) where
  | createProgram (label : String)
  | deleteProgram (id : Nat)
  | command (c : Command L)

/-- The name of a call, as the log shows it. -/
def RenderCall.name {L : Type} : RenderCall L → String
  | .createProgram _ => "create_program"
  | .deleteProgram _ => "delete_program"
  | .command c => c.name

/-- A renderer's state and every call so far. -/
structure Recorded (L σ : Type) where
  inner : σ
  calls : List (RenderCall L)

namespace Recorded

variable {L σ : Type}

/-- How many calls with a name there have been. -/
def count (s : Recorded L σ) (name : String) : Nat := s.calls.countP fun call => call.name = name

/-- One more call. -/
def log (s : Recorded L σ) (call : RenderCall L) : Recorded L σ :=
  { s with calls := s.calls ++ [call] }

/-- A call written down, and made unless it is to fail. -/
def call {α : Type} (fails : String → Nat → Bool) (kind : FaultKind) (entry : RenderCall L)
    (act : Action σ α) : Action (Recorded L σ) α := fun s =>
  let s := s.log entry
  if fails entry.name (s.count entry.name) then
    (.error (.reported kind ("injected " ++ entry.name)), s)
  else
    let (result, inner) := act s.inner
    (result, { s with inner := inner })

/-- The renderer behind a log. The call number `n` of a name fails if `fails name n`, counting from
one. -/
def renderer (r : Renderer L σ) (fails : String → Nat → Bool) : Renderer L (Recorded L σ) where
  createProgram p := call fails .graphicsInit (.createProgram p.label) (r.createProgram p)
  deleteProgram id s :=
    let s := s.log (.deleteProgram id)
    { s with inner := r.deleteProgram id s.inner }
  perform c := call fails .drawing (.command c) (r.perform c)
  readBack s := r.readBack s.inner

end Recorded

/-- A call to a sink. -/
inductive SinkCall where
  | attach (displayId : Nat) (surface : Size)
  | detach
  deriving DecidableEq, Repr

/-- A sink's state, every call so far, and the fault that attaching is to report, if any. -/
structure RecordedSink (δ : Type) where
  inner : δ
  calls : List SinkCall
  fault : Option Fault

/-- The sink behind a log. -/
def RecordedSink.sink {δ : Type} (k : Sink δ) : Sink (RecordedSink δ) where
  attach display surface s :=
    let s := { s with calls := s.calls ++ [SinkCall.attach display.id surface] }
    match s.fault with
    | some e => (.error e, s)
    | none =>
      let (result, inner) := k.attach display surface s.inner
      (result, { s with inner := inner })
  detach s := { s with inner := k.detach s.inner, calls := s.calls ++ [SinkCall.detach] }

end RegionCapture
