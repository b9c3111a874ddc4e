import RegionCapture.Picture.Bmp
import RegionCapture.Png.Decode
/-!
# Icons

Several pictures of one thing, of which the one with the most colours is taken, and the largest of
these. Each is a file of its own, or a bitmap with a mask for what is not shown.
-/

namespace RegionCapture.Picture.Icon

/-- What an icon says about one of its pictures. -/
structure Entry where
  width : Nat
  height : Nat
  /-- Bits of a pixel. -/
  depth : Nat
  /-- Bytes of the picture. -/
  length : Nat
  /-- Where the picture begins. -/
  start : Nat

namespace Entry

/-- The largest number of planes or bits. -/
def maxBits : Nat := 256

/-- The entry with an index. A side of zero is the largest. -/
def read? (bytes : ByteArray) (index : Nat) : Option Entry := do
  let pos := 6 + 16 * index
  let width ← Bytes.littleAt? bytes pos 1
  let height ← Bytes.littleAt? bytes (pos + 1) 1
  let planes ← Bytes.littleAt? bytes (pos + 4) 2
  let depth ← Bytes.littleAt? bytes (pos + 6) 2
  let length ← Bytes.littleAt? bytes (pos + 8) 4
  let start ← Bytes.littleAt? bytes (pos + 12) 4
  let side (n : Nat) := if n = 0 then 256 else n
  if maxBits < planes || maxBits < depth then none
  else pure ⟨side width, side height, depth, length, start⟩

/-- One entry is worse than another: it has fewer bits, or as many and fewer pixels. -/
def isBelow (e e' : Entry) : Bool :=
  e.depth < e'.depth || (e.depth = e'.depth && e.width * e.height < e'.width * e'.height)

/-- The best of some entries. The last comes first among equals, then the others in order. -/
def best? (entries : List Entry) : Option Entry :=
  entries.getLast?.map fun last =>
    entries.dropLast.foldl (fun best e => if best.isBelow e then e else best) last

/-- The entry is about a picture of this size. It cannot tell how large a large one is. -/
def isFor (e : Entry) (size : Size) : Bool :=
  e.width = min 256 size.width && e.height = min 256 size.height

end Entry

/-- The picture that is a file of its own. It has colours with opacity, of eight bits each. -/
def file? (e : Entry) (bytes : ByteArray) : Option Frame := do
  let content := bytes.extract e.start bytes.size
  let frame ← Png.decode? content
  if e.length < 8 || content.get! 24 ≠ 8 || content.get! 25 ≠ 6 || !e.isFor frame.size then none
  else pure frame

/-- Bytes of a row of the mask. -/
def maskRowBytes (width : Nat) : Nat := (width + 31) / 32 * 4

/-- A bit of the mask that begins at a position, for a picture of some size. Its rows go up. -/
def isMasked (bytes : ByteArray) (start : Nat) (size : Size) (x y : Nat) : Bool :=
  let row := start + (size.height - 1 - y) * maskRowBytes size.width
  (bytes.get! (row + x / 8)).toNat.testBit (7 - x % 8)

/-- A bitmap with its mask. The height is that of both together, pixels of four bytes have their
opacity in the last, and pixels in runs have none. The mask may be missing, but not in part. -/
def bitmap? (e : Entry) (bytes : ByteArray) : Option Frame := do
  let h ← Bmp.Header.read? bytes e.start
  let alpha := if h.depth = 32 && h.masks = .eightBits then ⟨24, 8⟩ else h.masks.alpha
  let h := { h with height := h.height / 2, masks := { h.masks with alpha } }
  if !e.isFor ⟨h.width, h.height⟩ then none
  else
    let (frame, pixelsEnd) ← Bmp.picture? h bytes h.tableEnd
    let frame := if h.hasRuns then frame.mapPixels fun _ _ c => { c with a := 0 } else frame
    let maskEnd := pixelsEnd + h.height * maskRowBytes h.width
    if e.start + e.length < maskEnd then
      if e.start + e.length = pixelsEnd then pure frame else none
    else if bytes.size < maskEnd then none
    else
      pure (frame.mapPixels fun x y c =>
        if isMasked bytes pixelsEnd frame.size x y then { c with a := 0 } else c)

/-- The picture in a file. -/
def decode? (bytes : ByteArray) : Option Frame := do
  let count ← Bytes.littleAt? bytes 4 2
  let entries ← (List.range count).mapM (Entry.read? bytes)
  let e ← Entry.best? entries
  let name ← Bytes.part? bytes e.start 8
  if name = Png.signature.data.toList then file? e bytes else bitmap? e bytes

end RegionCapture.Picture.Icon
