import RegionCapture.Document.Geometry
import RegionCapture.Json.Reader
import RegionCapture.Json.Writer
import RegionCapture.Options
import RegionCapture.Scalar.Machine
import RegionCapture.Session.Plan
/-!
# Captures in documents

How options and plans are written, and how options are read. A document of options holds only the
fields that it changes; crops that are not set are left out.
-/

namespace RegionCapture

namespace Options

/-- The names of the fields, in order. -/
def fieldNames : List String :=
  ["display_id", "max_size", "crop", "crop_region2", "capture_orientation_lock",
    "capture_orientation", "angle"]

/-- A field that may be left out. -/
def given {α : Type} (decode : Json → Option α) (otherwise : α) : Option Json → Option α
  | none => some otherwise
  | some v => decode v

/-- The options that a document describes. -/
def ofJson? (v : Json) : Option (Options Float) :=
  match v.fields? fieldNames with
  | some [displayId, maxSize, crop, crop2, lock, orientation, angle] => do
    let displayId ← given (Json.nat? Text.maxNat32) 0 displayId
    let maxSize ← given (Json.nat? Text.maxNat32) 0 maxSize
    let crop ← given (Json.optional? Rect.ofJson?) none crop
    let crop2 ← given (Json.optional? Rect.ofJson?) none crop2
    let lock ← given (Json.named? OrientationLock.ofName?) .unlocked lock
    let orientation ← given (Json.named? Orientation.ofName?) .upright orientation
    let angle ← given Json.double? 0 angle
    pure ⟨displayId, maxSize, crop, crop2, lock, orientation, angle⟩
  | _ => none

/-- A crop as a member, if it is set. -/
def cropMember (name : String) : Option Rect → List (String × Json)
  | none => []
  | some r => [(name, r.toJson)]

/-- The members of the options as a document. -/
def members (o : Options Float) : List (String × Json) :=
  [("display_id", .nat o.displayId), ("max_size", .nat o.maxSize)]
    ++ cropMember "crop" o.crop
    ++ cropMember "crop_region2" o.crop2
    ++ [("capture_orientation_lock", .text o.lock.name),
      ("capture_orientation", .text o.orientation.name), ("angle", .double o.angle)]

/-- Options as a document. -/
def toJson (o : Options Float) : Json := .record o.members

/-- Options as text, over several lines. -/
def toText (o : Options Float) : String := o.toJson.pretty

/-- The options that a document holds. They have to make sense. -/
def ofSymbols (symbols : List Json.Symbol) : Except Fault (Options Float) :=
  match (Json.read? symbols).bind ofJson? with
  | none => .error .malformedOptions
  | some o => o.validate.map fun _ => o

/-- The options that a text holds. -/
def ofText (text : String) : Except Fault (Options Float) := ofSymbols (Json.symbolsOfText text)

/-- The options that bytes hold. -/
def ofBytes (bytes : ByteArray) : Except Fault (Options Float) :=
  ofSymbols (Json.symbolsOfBytes bytes)

end Options

namespace Plan

/-- A plan as a document. -/
def toJson (p : Plan Float) : Json :=
  .record [("display", p.display.toJson), ("layout", p.layout.toJson),
    ("input_size", p.inputSize.toJson), ("transform1", Json.orNull Affine.toJson p.transform1),
    ("transform2", Json.orNull Affine.toJson p.transform2), ("dual", .bool p.dual)]

/-- A plan as text, over several lines. -/
def toText (p : Plan Float) : String := p.toJson.pretty

end Plan

end RegionCapture
