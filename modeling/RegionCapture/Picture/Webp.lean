import RegionCapture.Bytes
import RegionCapture.Picture.Webp.Transform
/-!
# Pictures in chunks

One picture without loss, by itself or among named chunks.
-/

namespace RegionCapture.Picture.Webp

/-- The bytes of a name. -/
def name (s : String) : List UInt8 := s.toUTF8.data.toList

/-- A named part of a file. -/
structure Chunk where
  name : List UInt8
  content : ByteArray

/-- The chunks from a position up to an end, as far as they are there. They begin at even places. -/
def chunks (bytes : ByteArray) (last : Nat) : Nat → Nat → List Chunk
  | 0, _ => []
  | fuel + 1, pos =>
    if last ≤ pos then []
    else
      match Bytes.part? bytes pos 4, Bytes.littleAt? bytes (pos + 4) 4 with
      | some name, some size =>
        ⟨name, bytes.extract (pos + 8) (pos + 8 + size)⟩
          :: chunks bytes last fuel (pos + 8 + size + size % 2)
      | _, _ => []

/-- The content of the first chunk with a name. -/
def contentOf? (chunks : List Chunk) (s : String) : Option ByteArray :=
  (chunks.find? (·.name = name s)).map (·.content)

/-- The sides of a picture, and whether it has opacity. -/
structure Header where
  width : Nat
  height : Nat
  hasAlpha : Bool
  deriving DecidableEq

namespace Header

/-- The header of the pixels themselves. -/
def read : Reader Header := do
  let signature ← bits 8
  let width := (← bits 14) + 1
  let height := (← bits 14) + 1
  let hasAlpha ← flag
  let version ← bits 3
  if signature ≠ 47 || version ≠ 0 then failure else pure ⟨width, height, hasAlpha⟩

/-- The header of a file with more chunks, which have to be there if it says so. Moving pictures and
pictures with loss are refused. -/
def ofChunks? (content : ByteArray) (chunks : List Chunk) : Option Header := do
  let flags ← Bytes.littleAt? content 0 1
  let width ← Bytes.littleAt? content 4 3
  let height ← Bytes.littleAt? content 7 3
  let has (s : String) := (contentOf? chunks s).isSome
  if flags.testBit 1 || has "VP8 " || (flags.testBit 3 && !has "EXIF")
      || (flags.testBit 2 && !has "XMP ") then
    none
  else pure ⟨width + 1, height + 1, flags.testBit 4⟩

end Header

/-- The pixels of a picture. -/
def readPicture : Reader (Header × Raster) := do
  let h ← Header.read
  let (transforms, width) ← Transform.readAll h.height 5 h.width []
  let stored ← readRaster width h.height
  pure (h, transforms.foldl (fun r t => t.undo r) stored)

/-- The largest side that pixels can have. A picture by itself may not be as large. -/
def maxSide : Nat := 16384

/-- The frame of a picture. Without opacity all of it is opaque. -/
def frame (hasAlpha : Bool) (r : Raster) : Frame :=
  Frame.ofFn r.width r.height fun x y =>
    let c := r.pixel (y * r.width + x)
    if hasAlpha then c else { c with a := 255 }

/-- The picture in a file. -/
def decode? (bytes : ByteArray) : Option Frame := do
  let kind ← Bytes.part? bytes 0 4
  let size ← Bytes.littleAt? bytes 4 4
  let form ← Bytes.part? bytes 8 4
  let main ← (chunks bytes bytes.size 1 12).head?
  if kind ≠ name "RIFF" || form ≠ name "WEBP" then none
  else if main.name = name "VP8L" then
    let ((h, r), _) ← readPicture main.content 0
    if h.width = maxSide || h.height = maxSide then none else pure (frame h.hasAlpha r)
  else if main.name = name "VP8X" then
    let start ← (Bytes.littleAt? bytes 16 4).map fun size => 20 + size + size % 2
    let rest := chunks bytes (start + (size - 12)) bytes.size start
    let outer ← Header.ofChunks? main.content rest
    let ((h, r), _) ← readPicture (← contentOf? rest "VP8L") 0
    if h.width ≠ outer.width || h.height ≠ outer.height then none
    else pure (frame outer.hasAlpha r)
  else none

end RegionCapture.Picture.Webp
