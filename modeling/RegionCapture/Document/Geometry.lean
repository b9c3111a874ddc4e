import RegionCapture.Display
import RegionCapture.Json.Decode
import RegionCapture.Layout
import RegionCapture.PointerMap
/-!
# Geometry in documents

How sizes, rectangles, positions, transforms, layouts and displays are written in documents and read
from them. A record is written as an object with its fields in order.
-/

namespace RegionCapture

open Json

namespace Size

/-- A size as a document. -/
def toJson (s : Size) : Json := .record [("width", .nat s.width), ("height", .nat s.height)]

/-- The size that a document describes. -/
def ofJson? (v : Json) : Option Size :=
  match v.allFields? ["width", "height"] with
  | some [w, h] => do
    let width ← w.nat? Text.maxNat32
    let height ← h.nat? Text.maxNat32
    pure ⟨width, height⟩
  | _ => none

end Size

namespace Rect

/-- A rectangle as a document. -/
def toJson (r : Rect) : Json :=
  .record [("left", .int r.left), ("top", .int r.top), ("right", .int r.right),
    ("bottom", .int r.bottom)]

/-- The rectangle that a document describes. -/
def ofJson? (v : Json) : Option Rect :=
  match v.allFields? ["left", "top", "right", "bottom"] with
  | some [l, t, r, b] => do
    let left ← l.int32?
    let top ← t.int32?
    let right ← r.int32?
    let bottom ← b.int32?
    pure ⟨left, top, right, bottom⟩
  | _ => none

end Rect

namespace PixelPoint

/-- A pixel position as a document. -/
def toJson (p : PixelPoint) : Json := .record [("x", .int p.x), ("y", .int p.y)]

/-- The pixel position that a document describes. -/
def ofJson? (v : Json) : Option PixelPoint :=
  match v.allFields? ["x", "y"] with
  | some [x, y] => do
    let x ← x.int32?
    let y ← y.int32?
    pure ⟨x, y⟩
  | _ => none

end PixelPoint

namespace Position

/-- A position in a video as a document. -/
def toJson (p : Position) : Json :=
  .record [("point", p.point.toJson), ("screen_size", p.screen.toJson)]

/-- The position in a video that a document describes. -/
def ofJson? (v : Json) : Option Position :=
  match v.allFields? ["point", "screen_size"] with
  | some [p, s] => do
    let point ← PixelPoint.ofJson? p
    let screen ← Size.ofJson? s
    pure ⟨point, screen⟩
  | _ => none

end Position

namespace Viewport

/-- A viewport as a document. -/
def toJson (v : Viewport) : Json :=
  .record [("x", .nat v.x), ("y", .nat v.y), ("width", .nat v.width), ("height", .nat v.height)]

/-- The viewport that a document describes. -/
def ofJson? (v : Json) : Option Viewport :=
  match v.allFields? ["x", "y", "width", "height"] with
  | some [x, y, w, h] => do
    let x ← x.nat? Text.maxNat32
    let y ← y.nat? Text.maxNat32
    let width ← w.nat? Text.maxNat32
    let height ← h.nat? Text.maxNat32
    pure ⟨x, y, width, height⟩
  | _ => none

end Viewport

namespace Affine

/-- A transform as a document: its coefficients in order. -/
def toJson (m : Affine Float) : Json := .array (m.coefficients.map Json.double)

/-- The transform that a document describes. -/
def ofJson? : Json → Option (Affine Float)
  | .array items =>
    match items.mapM Json.double? with
    | some [a, b, c, d, e, f] => some ⟨a, b, c, d, e, f⟩
    | _ => none
  | _ => none

end Affine

namespace Placement

/-- A place in a layout as a document. -/
def toJson (p : Placement Float) : Json :=
  .record [("inverse_transform", p.inverse.toJson), ("output_size", p.size.toJson), ("x", .nat p.x),
    ("y", .nat p.y)]

/-- The place in a layout that a document describes. -/
def ofJson? (v : Json) : Option (Placement Float) :=
  match v.allFields? ["inverse_transform", "output_size", "x", "y"] with
  | some [m, s, x, y] => do
    let inverse ← Affine.ofJson? m
    let size ← Size.ofJson? s
    let x ← x.nat? Text.maxNat32
    let y ← y.nat? Text.maxNat32
    pure ⟨inverse, size, x, y⟩
  | _ => none

end Placement

namespace Layout

/-- A layout as a document. -/
def toJson (l : Layout Float) : Json :=
  .record [("combined", l.combined.toJson),
    ("regions", .array [orNull Placement.toJson l.region1, orNull Placement.toJson l.region2])]

/-- The layout that a document describes. -/
def ofJson? (v : Json) : Option (Layout Float) :=
  match v.allFields? ["combined", "regions"] with
  | some [c, .array [r1, r2]] => do
    let combined ← Size.ofJson? c
    let region1 ← r1.optional? Placement.ofJson?
    let region2 ← r2.optional? Placement.ofJson?
    pure ⟨combined, region1, region2⟩
  | _ => none

end Layout

namespace DisplayState

/-- The state of a display as a document. -/
def toJson (d : DisplayState) : Json :=
  .record [("display_id", .nat d.id), ("size", d.size.toJson), ("rotation", .nat d.turns),
    ("layer_stack", .nat d.layerStack), ("flags", .nat d.flags)]

/-- The state of a display that a document describes. -/
def ofJson? (v : Json) : Option DisplayState :=
  match v.allFields? ["display_id", "size", "rotation", "layer_stack", "flags"] with
  | some [i, s, t, l, f] => do
    let id ← i.nat? Text.maxNat32
    let size ← Size.ofJson? s
    let turns ← t.nat? 255
    let layerStack ← l.nat? Text.maxNat32
    let flags ← f.nat? Text.maxNat32
    pure ⟨id, size, turns, layerStack, flags⟩
  | _ => none

end DisplayState

namespace Capabilities

/-- The capabilities of a device as a document. -/
def toJson (c : Capabilities) : Json := .record [("spatial_display", .bool c.spatialDisplay)]

/-- The capabilities that a document describes. -/
def ofJson? (v : Json) : Option Capabilities :=
  match v.allFields? ["spatial_display"] with
  | some [s] => s.bool?.map (⟨·⟩)
  | _ => none

end Capabilities

end RegionCapture
