import RegionCapture.Display
import RegionCapture.Layout
import RegionCapture.Options
import RegionCapture.Region
/-!
# Capture plans

What follows from the options and the state of the display: how each region is made, and where it
stands in the output.
-/

namespace RegionCapture

/-- Everything that a capture is started from. -/
structure Plan (K : Type) where
  display : DisplayState
  layout : Layout K
  /-- The size of the surface that the display is mirrored into. -/
  inputSize : Size
  /-- From the first region back to the source; none if they are the same. -/
  transform1 : Option (Affine K)
  transform2 : Option (Affine K)
  /-- There are two regions. -/
  dual : Bool
  deriving DecidableEq, Repr

namespace Plan

variable {K : Type}

/-- The size of the output. -/
def videoSize (p : Plan K) : Size := p.layout.combined

variable [Coefficient K]

/-- A region of the display: cropped if there is a crop, oriented, and tilted. -/
def region [Rotation K] (o : Options K) (display : DisplayState) (crop : Option Rect) :
    Except Fault (Region K) := do
  let r : Region K := Region.whole display.size
  let r ← match crop with
    | some rect => r.crop rect (display.turns % 2 = 1)
    | none => pure r
  let r ← r.orientOn display.turns o.lock.isLocked o.orientation
  r.tilt o.angle

/-- A region of a given size as the layout takes it. -/
def input (size : Size) (inverse : Option (Affine K)) : RegionInput K :=
  ⟨size, inverse.getD Affine.identity⟩

/-- The plan of a single region. -/
def single [Rotation K] (o : Options K) (display : DisplayState) : Except Fault (Plan K) := do
  let region1 ← region o display o.crop
  let inverse1 ← region1.inverse
  pure
    { display := display
      layout := Layout.arrange (some (input region1.size inverse1)) none o.cap
      inputSize := display.size
      transform1 := inverse1
      transform2 := none
      dual := false }

/-- The plan of two regions. Their sizes are rounded up to multiples of 8. A first crop that is
missing still takes its place, with no area. -/
def pair [Rotation K] (o : Options K) (display : DisplayState) (crop2 : Rect) :
    Except Fault (Plan K) := do
  let region1 ← region o display (some (o.crop.getD Rect.zero))
  let region2 ← region o display (some crop2)
  let inverse1 ← region1.inverse
  let inverse2 ← region2.inverse
  pure
    { display := display
      layout := Layout.arrange (some (input region1.size.align inverse1))
        (some (input region2.size.align inverse2)) o.cap
      inputSize := display.size
      transform1 := inverse1
      transform2 := inverse2
      dual := true }

/-- The plan for a display. -/
def make [Rotation K] (o : Options K) (display : DisplayState) : Except Fault (Plan K) :=
  match o.crop2 with
  | none => single o display
  | some crop2 => pair o display crop2

end Plan

end RegionCapture
