import RegionCapture.Affine
/-!
# Pointer positions

From a position in the video that a client shows back to the display. Only the first region counts:
a position in the second is mapped as if it were in the first.
-/

namespace RegionCapture

/-- A position in a video of the given size. -/
structure Position where
  point : PixelPoint
  screen : Size
  deriving DecidableEq, Repr

/-- The size of the video, and the transform from its pixels to those of the display. An empty video
has none. -/
structure PointerMap (K : Type) where
  video : Size
  transform : Option (Affine K)
  deriving DecidableEq, Repr

namespace PointerMap

variable {K : Type}

/-- The map for a video whose normalized coordinates `toSource` takes to those of the source; the
source has the size `target`. -/
def create [Scalar K] (video : Size) (toSource : Option (Affine K)) (target : Size) :
    PointerMap K where
  video := video
  transform :=
    if video.isEmpty then none
    else some (((Affine.toPixels target).compose (toSource.getD Affine.identity)).compose
      (Affine.ofPixels video))

/-- The position on the display; none if the client shows a video of another size. -/
def map [Coefficient K] (m : PointerMap K) (p : Position) : Option PixelPoint :=
  if p.screen ≠ m.video then none else m.transform.map (·.applyPixel p.point)

end PointerMap

end RegionCapture
