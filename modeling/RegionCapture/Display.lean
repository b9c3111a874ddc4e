import RegionCapture.Fault
/-!
# Displays

What a capture knows of a display, and what it hands its input surface to.
-/

namespace RegionCapture

/-- The flag of a display that supports protected buffers. -/
def protectedFlag : Nat := 1

/-- What a display reports about itself. -/
structure DisplayState where
  id : Nat
  /-- The current size, already turned. -/
  size : Size
  /-- Counter-clockwise quarter turns from the natural orientation. -/
  turns : Nat
  layerStack : Nat
  flags : Nat
  deriving DecidableEq, Repr

namespace DisplayState

/-- Mirroring is not restricted. -/
def isProtected (d : DisplayState) : Bool := d.flags &&& protectedFlag != 0

/-- The display turned on by quarter turns. -/
def rotate (d : DisplayState) (turns : Nat) : DisplayState :=
  { d with
    size := if turns % 2 = 1 then d.size.rotate else d.size
    turns := (d.turns + turns) % 4 }

end DisplayState

/-- What is known of the device when a capture is set up. -/
structure Capabilities where
  spatialDisplay : Bool
  deriving DecidableEq, Repr

/-- What can be asked about displays: the state of the one with an id, if there is one. -/
abbrev DisplaySource := Nat → Except Fault (Option DisplayState)

/-- Where a display is mirrored to. Attaching may report the id of a virtual display that was made
for the capture. -/
structure Sink (δ : Type) where
  attach : DisplayState → Size → δ → Except Fault (Option Nat) × δ
  detach : δ → δ

/-- A single display that exists only here. -/
structure FixedDisplay where
  state : DisplayState
  attached : Option Size
  /-- Attaching makes a virtual display. -/
  makesVirtual : Bool
  deriving DecidableEq, Repr

namespace FixedDisplay

/-- A display with nothing attached and buffers protected. -/
def new (id : Nat) (size : Size) (turns : Nat) : FixedDisplay :=
  ⟨⟨id, size, turns % 4, 0, protectedFlag⟩, none, false⟩

/-- The same display with other flags. -/
def withFlags (d : FixedDisplay) (flags : Nat) : FixedDisplay :=
  { d with state := { d.state with flags := flags } }

/-- The same display, making a virtual one when it is attached. -/
def withVirtual (d : FixedDisplay) : FixedDisplay := { d with makesVirtual := true }

/-- The display turned on by quarter turns. -/
def rotate (d : FixedDisplay) (turns : Nat) : FixedDisplay :=
  { d with state := d.state.rotate turns }

/-- The display as a source that knows no other. -/
def source (d : FixedDisplay) : DisplaySource := fun id =>
  .ok (if d.state.id = id then some d.state else none)

/-- Mirror a display into a surface. The virtual display is numbered 1000 up. -/
def attach (display : DisplayState) (surface : Size) (d : FixedDisplay) :
    Except Fault (Option Nat) × FixedDisplay :=
  if surface.isEmpty then (.error (.emptySurface display.id), d)
  else (.ok (if d.makesVirtual then some (display.id + 1000) else none),
    { d with attached := some surface })

/-- Nothing is mirrored any more. -/
def detach (d : FixedDisplay) : FixedDisplay := { d with attached := none }

/-- The display as a sink. -/
def sink : Sink FixedDisplay := ⟨attach, detach⟩

end FixedDisplay

end RegionCapture
