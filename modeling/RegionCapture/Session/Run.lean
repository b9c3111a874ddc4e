import RegionCapture.Session
/-!
# Runs

A session together with its renderer and its sink, and everything that can be done with the three,
in any order.
-/

namespace RegionCapture

/-- A session, the state of its renderer, and that of its sink. -/
structure Rig (K L β δ : Type) where
  session : Session K L
  renderer : β
  sink : δ

/-- Something done with a session. -/
inductive Operation (L : Type) where
  /-- Prepare for what a source says about the display. -/
  | prepare (source : DisplaySource)
  | setMaxSize (maxSize : Nat)
  | invalidate
  | notify (size : Size)
  | start
  | render (frame : SourceFrame L)
  | stop
  | release

/-- What an operation gives. -/
inductive Reply (K : Type) where
  | planned (plan : Plan K)
  | announced (a : Announcement K)
  | done

namespace Rig

variable {K L β δ : Type} [Coefficient K] [Rotation K] [Scalar L] [Narrowing K L]

/-- One operation. -/
def perform (r : Renderer L β) (k : Sink δ) (g : Rig K L β δ) :
    Operation L → Except Fault (Reply K) × Rig K L β δ
  | .prepare source =>
    let (result, session) := g.session.prepare source
    (result.map .planned, { g with session := session })
  | .setMaxSize maxSize => (.ok .done, { g with session := g.session.setMaxSize maxSize })
  | .invalidate => (.ok .done, { g with session := g.session.invalidate })
  | .notify size => (.ok .done, { g with session := g.session.notify size })
  | .start =>
    let started := g.session.start r k g.renderer g.sink
    (started.result.map .announced, ⟨started.session, started.renderer, started.sink⟩)
  | .render frame =>
    let (result, session, renderer) := g.session.render r frame g.renderer
    (result.map fun _ => .done, { g with session := session, renderer := renderer })
  | .stop =>
    let (session, renderer) := g.session.stop r g.renderer
    (.ok .done, { g with session := session, renderer := renderer })
  | .release =>
    let (session, sink) := g.session.release k g.sink
    (.ok .done, { g with session := session, sink := sink })

/-- Operations one after the other, whatever they give. -/
def run (r : Renderer L β) (k : Sink δ) (g : Rig K L β δ) (l : List (Operation L)) : Rig K L β δ :=
  l.foldl (fun g operation => (g.perform r k operation).2) g

end Rig

end RegionCapture
