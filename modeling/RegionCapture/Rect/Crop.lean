import RegionCapture.Fault
import RegionCapture.Text.Blank
import RegionCapture.Text.Numeral
/-!
# Reading crops

A crop is written `width:height:x:y`, each value with white space around it if one likes.
`Rect.ofCrop` reads what `Rect.text` writes.
-/

namespace RegionCapture.Rect

/-- The number in one of the four places of a crop. -/
def cropValue (text : String) (part : List Char) : Except Fault Int :=
  match Text.readInt32 (Text.trim part) with
  | .ok n => .ok n
  | .error _ => .error (.cropNumber (String.ofList part) text)

/-- The rectangle that a crop describes. The values are read from left to right, then the extents
are looked at, then the far edges. -/
def ofCrop (text : String) : Except Fault Rect :=
  match Text.split (· == ':') text.toList with
  | [w, h, x, y] => do
    let width ← cropValue text w
    let height ← cropValue text h
    let left ← cropValue text x
    let top ← cropValue text y
    if width < 0 || height < 0 then throw (.cropNegative text)
    else if !inRange (left + width) || !inRange (top + height) then throw (.cropRange text)
    else pure ⟨left, top, left + width, top + height⟩
  | _ => .error (.cropParts text)

end RegionCapture.Rect
