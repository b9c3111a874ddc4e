import RegionCapture.Fault
/-!
# Orientations

How a picture is turned before it is shown: the eight symmetries of a rectangle. A capture either
follows the display or is locked to one orientation.
-/

namespace RegionCapture

/-- An optional horizontal flip, followed by clockwise quarter turns. -/
structure Orientation where
  flipped : Bool
  turns : Fin 4
  deriving DecidableEq, Repr

namespace Orientation

/-- Neither flipped nor turned. -/
def upright : Orientation := ⟨false, 0⟩

/-- All eight, the unflipped ones first. -/
def all : List Orientation :=
  [⟨false, 0⟩, ⟨false, 1⟩, ⟨false, 2⟩, ⟨false, 3⟩, ⟨true, 0⟩, ⟨true, 1⟩, ⟨true, 2⟩, ⟨true, 3⟩]

/-- The degrees of the rotation, after the word `flip` if the picture is flipped. -/
def name (o : Orientation) : String :=
  (if o.flipped then "flip" else "") ++ toString (90 * o.turns.val)

/-- The orientation with a name. -/
def ofName? (name : String) : Option Orientation := all.find? (·.name = name)

/-- The orientation with a name, or the fault that says which names there are. -/
def ofText (text : String) : Except Fault Orientation :=
  match ofName? text with
  | some o => .ok o
  | none => .error (.orientationName text)

/-- The orientation that shows a display upright as it stands. Displays count quarter turns
counter-clockwise, orientations clockwise. -/
def ofDisplayRotation (turns : Nat) : Except Fault Orientation :=
  if turns < 4 then .ok ⟨false, Fin.ofNat 4 (4 - turns)⟩ else .error (.displayRotation turns)

theorem mem_all (o : Orientation) : o ∈ all := by
  obtain ⟨f, t⟩ := o
  revert f t
  decide

end Orientation

/-- Whether a capture follows the display. -/
inductive OrientationLock where
  /-- The orientation is applied on top of the current display rotation. -/
  | unlocked
  /-- Locked to the orientation that the display has when the capture is first prepared. -/
  | initial
  /-- Locked to the given orientation, counted from the natural one of the device. -/
  | value
  deriving DecidableEq, Repr

namespace OrientationLock

/-- The three locks. -/
def all : List OrientationLock := [.unlocked, .initial, .value]

/-- The name that documents use. -/
def name : OrientationLock → String
  | .unlocked => "unlocked"
  | .initial => "locked_initial"
  | .value => "locked_value"

/-- The lock with a name. -/
def ofName? (name : String) : Option OrientationLock := all.find? (·.name = name)

/-- The display rotation is undone before the orientation is applied. -/
def isLocked (l : OrientationLock) : Bool := l ≠ .unlocked

theorem mem_all (l : OrientationLock) : l ∈ all := by
  cases l <;> decide

end OrientationLock

/-- The form `[@]<orientation>`: a leading `@` locks the orientation, and `@` alone locks the one
that the display has at the start. -/
def orientationChoice (text : String) : Except Fault (OrientationLock × Orientation) :=
  match text.toList with
  | ['@'] => .ok (.initial, .upright)
  | '@' :: rest => (Orientation.ofText (String.ofList rest)).map fun o => (.value, o)
  | _ => (Orientation.ofText text).map fun o => (.unlocked, o)

end RegionCapture
