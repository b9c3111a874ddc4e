import RegionCapture.Compositor
import RegionCapture.PointerMap
import RegionCapture.Session.Plan
/-!
# Capture sessions

A session is prepared for a display, started, fed with frames, and stopped; it can be prepared and
started again at any time. Stopping deletes the drawing program, and releasing detaches the display:
one does not imply the other. A session can be told that its display has changed, or that it should
be set up anew; it only remembers this.
-/

namespace RegionCapture

/-- Whether a session should be set up anew, and the display size it was prepared for. -/
structure Invalidation where
  requested : Bool
  displaySize : Option Size
  deriving DecidableEq, Repr

namespace Invalidation

/-- Nothing asked for, nothing prepared. -/
def none : Invalidation := ⟨false, .none⟩

/-- Ask for it. -/
def request (i : Invalidation) : Invalidation := { i with requested := true }

/-- Ask for it if the display has another size than the one prepared for. -/
def notify (i : Invalidation) (size : Size) : Invalidation :=
  match i.displaySize with
  | some prepared => if prepared = size then i else i.request
  | .none => i

/-- Prepared for a display of this size. -/
def reset (_ : Invalidation) (size : Size) : Invalidation := ⟨false, some size⟩

end Invalidation

/-- What a listener hears when a capture starts: the display that input events should go to, and how
positions are mapped to it. -/
structure Announcement (K : Type) where
  displayId : Nat
  pointers : PointerMap K
  deriving DecidableEq, Repr

/-- A capture of one display. -/
structure Session (K L : Type) where
  options : Options K
  capabilities : Capabilities
  plan : Option (Plan K)
  /-- There is one while the session is started. -/
  compositor : Option (Compositor L)
  /-- The display is mirrored into the input surface. -/
  attached : Bool
  invalidation : Invalidation

namespace Session

variable {K L β δ : Type}

/-- A session that nothing has been done with; its options have to make sense. -/
def new [Coefficient K] (o : Options K) (c : Capabilities) : Except Fault (Session K L) := do
  o.validate
  pure ⟨o, c, none, none, false, Invalidation.none⟩

/-- The session has been started and not stopped since. -/
def isStarted (s : Session K L) : Bool := s.compositor.isSome

/-- The session should be set up anew. -/
def isInvalidated (s : Session K L) : Bool := s.invalidation.requested

/-- The size of the output, once prepared. -/
def videoSize (s : Session K L) : Option Size := s.plan.map Plan.videoSize

/-- Another cap, from the next preparation on. -/
def setMaxSize (s : Session K L) (maxSize : Nat) : Session K L :=
  { s with options := { s.options with maxSize := maxSize } }

/-- Ask for the session to be set up anew. -/
def invalidate (s : Session K L) : Session K L :=
  { s with invalidation := s.invalidation.request }

/-- Tell the session the size of its display. -/
def notify (s : Session K L) (size : Size) : Session K L :=
  { s with invalidation := s.invalidation.notify size }

/-- The lock to the initial orientation taken for a display, if that is what the options ask for:
from then on the orientation is locked to a value. -/
def takeLock (display : DisplayState) (s : Session K L) : Except Fault Unit × Session K L :=
  match s.options.lock with
  | .initial =>
    match Orientation.ofDisplayRotation display.turns with
    | .ok o => (.ok (), { s with options := { s.options with lock := .value, orientation := o } })
    | .error e => (.error e, { s with options := { s.options with lock := .value } })
  | _ => (.ok (), s)

/-- Plan the capture for a display that has been found. -/
def prepareFor [Coefficient K] [Rotation K] (display : DisplayState) (s : Session K L) :
    Except Fault (Plan K) × Session K L :=
  match takeLock display { s with invalidation := s.invalidation.reset display.size } with
  | (.error e, s) => (.error e, s)
  | (.ok (), s) =>
    match Plan.make s.options display with
    | .error e => (.error e, s)
    | .ok plan => (.ok plan, { s with plan := some plan })

/-- Look the display up and plan the capture. -/
def prepare [Coefficient K] [Rotation K] (source : DisplaySource) (s : Session K L) :
    Except Fault (Plan K) × Session K L :=
  match source s.options.displayId with
  | .error e => (.error e, s)
  | .ok none => (.error (.unknownDisplay s.options.displayId), s)
  | .ok (some display) => prepareFor display s

/-- Delete the program. Frames are not rendered any more. -/
def stop (r : Renderer L β) (s : Session K L) (b : β) : Session K L × β :=
  match s.compositor with
  | none => (s, b)
  | some c => ({ s with compositor := none }, c.release r b)

/-- Detach the display. -/
def release (k : Sink δ) (s : Session K L) (d : δ) : Session K L × δ :=
  if s.attached then ({ s with attached := false }, k.detach d) else (s, d)

/-- What a listener hears, given the virtual display that the sink has reported. The virtual display
counts only if the one captured is not display 0. -/
def announcement [Scalar K] (plan : Plan K) (virtual : Option Nat) : Announcement K :=
  match virtual with
  | some id =>
    if plan.display.id ≠ 0 then
      ⟨id, PointerMap.create plan.videoSize plan.transform1 plan.inputSize⟩
    else
      ⟨plan.display.id, PointerMap.create plan.videoSize plan.transform1 plan.display.size⟩
  | none => ⟨plan.display.id, PointerMap.create plan.videoSize plan.transform1 plan.display.size⟩

/-- What becomes of a session that is started: the result, and the three states. -/
structure Started (α K L β δ : Type) where
  result : Except Fault α
  session : Session K L
  renderer : β
  sink : δ

/-- Start an idle session on a plan: have a target, make the program, attach the display. If the
display cannot be attached, the program is deleted again. -/
def launch [Scalar K] [Scalar L] [Narrowing K L] (r : Renderer L β) (k : Sink δ) (plan : Plan K)
    (s : Session K L) (b : β) (d : δ) : Started (Announcement K) K L β δ :=
  match r.perform (.ensureTarget plan.videoSize) b with
  | (.error e, b) => ⟨.error e, s, b, d⟩
  | (.ok (), b) =>
    match (Compositor.new plan.layout).init r b with
    | (.error e, _, b) => ⟨.error e, s, b, d⟩
    | (.ok (), c, b) =>
      match k.attach plan.display plan.inputSize d with
      | (.error e, d) => ⟨.error e, s, c.release r b, d⟩
      | (.ok virtual, d) =>
        ⟨.ok (announcement plan virtual), { s with compositor := some c, attached := true }, b, d⟩

/-- Start the session, after stopping it and detaching its display if need be. The result is what a
listener hears. -/
def start [Scalar K] [Scalar L] [Narrowing K L] (r : Renderer L β) (k : Sink δ) (s : Session K L)
    (b : β) (d : δ) : Started (Announcement K) K L β δ :=
  let (s, b) := s.stop r b
  let (s, d) := s.release k d
  match s.plan with
  | none => ⟨.error .notPrepared, s, b, d⟩
  | some plan =>
    if plan.videoSize.isEmpty then ⟨.error (.emptyOutput plan.videoSize), s, b, d⟩
    else launch r k plan s b d

/-- Somebody who listens: what an announcement does to a state of their own. -/
abbrev Listener (K ω : Type) := Announcement K → ω → ω

/-- What becomes of a listener, if there is one, when a start ends. -/
def tell {ω : Type} (listener : Option (Listener K ω)) (result : Except Fault (Announcement K))
    (w : ω) : ω :=
  match listener, result with
  | some hear, .ok a => hear a w
  | _, _ => w

/-- Start the session with somebody listening, or nobody. -/
def startHeard {ω : Type} [Scalar K] [Scalar L] [Narrowing K L] (r : Renderer L β) (k : Sink δ)
    (listener : Option (Listener K ω)) (s : Session K L) (b : β) (d : δ) (w : ω) :
    Started Unit K L β δ × ω :=
  let started := s.start r k b d
  ({ started with result := started.result.map fun _ => () }, tell listener started.result w)

/-- Render one frame into the cleared target. -/
def render (r : Renderer L β) (frame : SourceFrame L) (s : Session K L) (b : β) :
    Except Fault Unit × Session K L × β :=
  match s.compositor with
  | none => (.error .notStarted, s, b)
  | some c =>
    match r.perform (.clearTarget .transparent) b with
    | (.error e, b) => (.error e, s, b)
    | (.ok (), b) =>
      let (result, c, b) := c.draw r frame b
      (result, { s with compositor := some c }, b)

end Session

end RegionCapture
