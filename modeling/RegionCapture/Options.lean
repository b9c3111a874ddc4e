import RegionCapture.Orientation
import RegionCapture.Scalar
/-!
# Capture options

What a user asks of a capture. Every field has a default.
-/

namespace RegionCapture

/-- The options of one capture. -/
structure Options (K : Type) where
  displayId : Nat
  /-- A cap on the longer side of a capture of one region; zero is no cap. -/
  maxSize : Nat
  /-- The part of the display to show; all of it if there is none. -/
  crop : Option Rect
  /-- A second part, shown to the right of the first. -/
  crop2 : Option Rect
  lock : OrientationLock
  orientation : Orientation
  /-- A free rotation of the content, in degrees clockwise. -/
  angle : K
  deriving DecidableEq, Repr

namespace Options

variable {K : Type}

/-- Everything by default: the whole of display 0 as it stands. -/
def standard [Zero K] : Options K := ⟨0, 0, none, none, .unlocked, .upright, 0⟩

/-- A crop that is given may neither begin outside nor have its edges crossed. -/
def checkCrop (field : String) : Option Rect → Except Fault Unit
  | none => .ok ()
  | some crop =>
    if crop.left < 0 || crop.top < 0 then .error (.cropOrigin field crop)
    else if crop.width < 0 || crop.height < 0 then .error (.cropExtent field crop)
    else .ok ()

/-- The options make sense by themselves, whatever the display. -/
def validate [Coefficient K] (o : Options K) : Except Fault Unit := do
  if !Coefficient.isFinite o.angle then throw .angleOption
  checkCrop "crop" o.crop
  checkCrop "crop_region2" o.crop2

/-- The cap, rounded down to a multiple of 8. -/
def cap (o : Options K) : Nat := roundDown8 o.maxSize

/-- Two regions are shown. -/
def isDual (o : Options K) : Bool := o.crop2.isSome

/-- Set lock and orientation together, from the form `[@]<orientation>`. -/
def orient (o : Options K) (text : String) : Except Fault (Options K) :=
  (orientationChoice text).map fun (lock, orientation) =>
    { o with lock := lock, orientation := orientation }

end Options

end RegionCapture
