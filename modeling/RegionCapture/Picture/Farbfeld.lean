import RegionCapture.Bytes
import RegionCapture.Picture.Sample
/-!
# Farbfeld

The plainest of picture files: a name, the two sides, and four samples of sixteen bits for each
pixel.
-/

namespace RegionCapture.Picture.Farbfeld

/-- What every file begins with. -/
def signature : List UInt8 := "farbfeld".toUTF8.data.toList

/-- The picture in a file. What follows it does not count. -/
def decode? (bytes : ByteArray) : Option Frame := do
  let name ← Bytes.part? bytes 0 8
  let width ← Bytes.bigAt? bytes 8 4
  let height ← Bytes.bigAt? bytes 12 4
  if name ≠ signature || bytes.size < 16 + 8 * (width * height) then none
  else
    pure (Frame.ofFn width height fun x y =>
      Channels.colorAlpha.pixel fun k =>
        narrow ((Bytes.bigAt? bytes (16 + 8 * (y * width + x) + 2 * k) 2).getD 0))

end RegionCapture.Picture.Farbfeld
