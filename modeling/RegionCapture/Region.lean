import RegionCapture.Affine
import RegionCapture.Orientation
/-!
# Regions

A region of the source is described step by step: cropped, turned, flipped, rotated. What the steps
leave is the size of the region and a transform from normalized source coordinates to normalized
region coordinates. Drawing needs the inverse, which says for a point of the output where in the
source it comes from.
-/

namespace RegionCapture

/-- What the steps so far have made of the source. Without a transform, the source itself. -/
structure Region (K : Type) where
  size : Size
  transform : Option (Affine K)
  deriving DecidableEq, Repr

namespace Region

variable {K : Type}

/-- The whole source. -/
def whole (source : Size) : Region K := ⟨source, none⟩

/-- The rectangle lies inside an area of this size. Edges are signed 32-bit numbers, so the sides
of the area are read as such. -/
def admits (area : Size) (rect : Rect) : Bool :=
  0 ≤ rect.width && 0 ≤ rect.height && 0 ≤ rect.left && 0 ≤ rect.top
    && rect.right ≤ Rect.signed32 area.width && rect.bottom ≤ Rect.signed32 area.height

section Scalar

variable [Scalar K]

/-- One more transform after those so far. -/
def append (r : Region K) (step : Affine K) (size : Size) : Region K where
  size := size
  transform := some (match r.transform with
    | some earlier => step.compose earlier
    | none => step)

/-- Turn counter-clockwise by quarter turns. -/
def rotate (r : Region K) (turns : Nat) : Except Fault (Region K) :=
  let turns := turns % 4
  if turns = 0 then .ok r
  else do
    let step ← Affine.quarterTurns turns
    pure (r.append step (if turns % 2 = 1 then r.size.rotate else r.size))

/-- Flip if the orientation asks for it, then turn clockwise. -/
def orient (r : Region K) (o : Orientation) : Except Fault (Region K) :=
  let flipped := if o.flipped then r.append Affine.mirrorX r.size else r
  flipped.rotate ((4 - o.turns.val) % 4)

/-- Orient the region on a display that is turned itself. If the orientation is locked, the turns of
the display are undone first, so that it counts from the natural orientation of the device. -/
def orientOn (r : Region K) (displayTurns : Nat) (locked : Bool) (o : Orientation) :
    Except Fault (Region K) := do
  let r ← if locked then r.rotate ((4 - displayTurns % 4) % 4) else pure r
  r.orient o

end Scalar

section Coefficient

variable [Coefficient K]

/-- The move of a rectangle inside a source of the given size onto the unit square. Rectangles count
from the top, normalized coordinates from the bottom. -/
def cropStep (source : Size) (rect : Rect) : Except Fault (Affine K) :=
  let w : K := Scalar.ofNat source.width
  let h : K := Scalar.ofNat source.height
  Affine.ontoUnitSquare (Scalar.ofInt rect.left / w) (1 - Scalar.ofInt rect.bottom / h)
    (Scalar.ofInt rect.width / w) (Scalar.ofInt rect.height / h)

/-- Keep a rectangle, given in pixels of the region before any turn. When the axes are exchanged,
the source stands at a quarter turn from its natural orientation, for which the rectangle was meant.
A rectangle without area leaves an empty region and no further transform. -/
def crop (r : Region K) (rect : Rect) (exchanged : Bool) : Except Fault (Region K) :=
  let rect := if exchanged then rect.transposed else rect
  if !admits r.size rect then .error (.cropOutside rect r.size)
  else if rect.span.isEmpty then .ok ⟨rect.span, r.transform⟩
  else (cropStep r.size rect).map fun step => r.append step rect.span

/-- The clockwise turn about the middle of a region of the given size, as it looks in normalized
coordinates. -/
def tiltStep [Rotation K] (size : Size) (degrees : K) : Affine K :=
  let ratio : K := Scalar.ofNat size.width / Scalar.ofNat size.height
  ((Affine.rotate (-degrees)).inAspect ratio).aboutCenter

/-- Turn the content clockwise about the middle of the region, by any angle. The size stays: what
leaves the rectangle is masked, and what it does not cover stays transparent. -/
def tilt [Rotation K] (r : Region K) (degrees : K) : Except Fault (Region K) :=
  if !Coefficient.isFinite degrees then .error (.angleStep (Coefficient.text degrees))
  else if Coefficient.isZero degrees || r.size.isEmpty then .ok r
  else .ok (r.append (tiltStep r.size degrees) r.size)

/-- The transform from the region back to the source; none if they are the same. -/
def inverse (r : Region K) : Except Fault (Option (Affine K)) :=
  match r.transform with
  | none => .ok none
  | some m => m.inverse.map some

end Coefficient

/-- One step of the description of a region. -/
inductive Step (K : Type) where
  | crop (rect : Rect) (exchanged : Bool)
  | rotate (turns : Nat)
  | orient (o : Orientation)
  | orientOn (displayTurns : Nat) (locked : Bool) (o : Orientation)
  | tilt (degrees : K)
  deriving DecidableEq, Repr

variable [Coefficient K] [Rotation K]

/-- One step taken. -/
def step (r : Region K) : Step K → Except Fault (Region K)
  | .crop rect exchanged => r.crop rect exchanged
  | .rotate turns => r.rotate turns
  | .orient o => r.orient o
  | .orientOn displayTurns locked o => r.orientOn displayTurns locked o
  | .tilt degrees => r.tilt degrees

/-- Steps taken one after the other, up to the first that fails. -/
def steps (r : Region K) (l : List (Step K)) : Except Fault (Region K) := l.foldlM step r

end Region

end RegionCapture
