import RegionCapture.Bytes
import RegionCapture.Picture.Sample
/-!
# Targa

Gray and coloured pictures, their pixels given one after the other or in packets, and as colours or
as places in a table of colours. Blue comes before green and red, and a colour of two bytes has five
bits for each.
-/

namespace RegionCapture.Picture.Targa

/-- The numbers that a file begins with. -/
structure Header where
  /-- Bytes of text before the table of colours. -/
  idLength : Nat
  hasTable : Bool
  /-- The numbers 1 and 2 are for places in a table and for colours, and 9 to 11 for packets of
  places, colours and grays. Any other is for grays as they are. -/
  sort : Nat
  tableStart : Nat
  tableLength : Nat
  /-- Bits of a colour in the table. -/
  entryBits : Nat
  width : Nat
  height : Nat
  /-- Bits of a pixel. -/
  depth : Nat
  /-- Bits of opacity, and where the first pixel stands. -/
  description : Nat

/-- The bytes that some bits need. -/
def bytesFor (bits : Nat) : Nat := (bits + 7) / 8

namespace Header

/-- The header of a file. -/
def read? (bytes : ByteArray) : Option Header := do
  let byte (pos : Nat) := Bytes.littleAt? bytes pos 1
  let word (pos : Nat) := Bytes.littleAt? bytes pos 2
  pure ⟨← byte 0, (← byte 1) = 1, ← byte 2, ← word 3, ← word 5, ← byte 7, ← word 12, ← word 14,
    ← byte 16, ← byte 17⟩

/-- Pixels are places in a table. -/
def isIndexed (h : Header) : Bool := h.sort = 1 || h.sort = 9

/-- Pixels have colours. -/
def isColored (h : Header) : Bool := h.isIndexed || h.sort = 2 || h.sort = 10

/-- Pixels come in packets. -/
def isPacked (h : Header) : Bool := 9 ≤ h.sort && h.sort ≤ 11

/-- Bytes of a pixel. -/
def pixelBytes (h : Header) : Nat := bytesFor h.depth

/-- Bytes of a colour in the table. -/
def entryBytes (h : Header) : Nat := bytesFor h.entryBits

/-- Where the table begins. -/
def tablePos (h : Header) : Nat := 18 + h.idLength

/-- Where the pixels begin. -/
def start (h : Header) : Nat := h.tablePos + if h.hasTable then h.tableLength * h.entryBytes else 0

/-- The header can be made sense of. Places are not larger than the colours that they stand for. -/
def isSound (h : Header) : Bool :=
  h.width ≠ 0 && h.height ≠ 0
    && (!h.isIndexed || (h.hasTable && (h.depth = 8 || h.depth = 16) && h.depth ≤ h.entryBits))
    && (!h.hasTable || (2 ≤ h.entryBytes && h.entryBytes ≤ 4))

/-- What the samples of a pixel stand for. -/
def channels? (h : Header) : Option Channels :=
  let alpha := h.description % 16
  let bits := if h.isIndexed then h.entryBits else h.depth
  match h.isColored, bits, alpha with
  | true, 32, 0 | true, 32, 8 => some .colorAlpha
  | true, 24, 0 | true, 16, 0 | true, 16, 1 | true, 15, 0 => some .color
  | false, 16, 8 => some .grayAlpha
  | false, 8, 0 | false, 8, 8 => some .gray
  | _, _, _ => none

end Header

/-- Packets unpacked, up to a number of bytes. A packet is one pixel to be repeated, or some pixels
as they are. -/
def unpack? (pixelBytes left : Nat) : List UInt8 → Option (List UInt8)
  | [] => if left = 0 then some [] else none
  | first :: rest =>
    if left = 0 then some []
    else
      let count := first.toNat % 128 + 1
      let stored := if first < 128 then min left (count * pixelBytes) else pixelBytes
      let content := rest.take stored
      if content.length < stored then none
      else
        let content :=
          if first < 128 then content else (List.replicate count content).flatten.take left
        (unpack? pixelBytes (left - content.length) (rest.drop stored)).map (content ++ ·)
termination_by bytes => bytes.length

/-- The bytes of all pixels, as they are stored. -/
def pixelData? (h : Header) (bytes : ByteArray) : Option (Array UInt8) := do
  let size := h.width * h.height * h.pixelBytes
  let data ← if h.isPacked then
      unpack? h.pixelBytes size (bytes.extract h.start bytes.size).data.toList
    else Bytes.part? bytes h.start size
  pure data.toArray

/-- A pixel from its bytes. -/
def pixel (c : Channels) (bytes : List UInt8) : Rgba :=
  match c, bytes with
  | .gray, [v] => ⟨v, v, v, 255⟩
  | .grayAlpha, [v, a] => ⟨v, v, v, a⟩
  | .color, [b, g, r] => ⟨r, g, b, 255⟩
  | .colorAlpha, [b, g, r, a] => ⟨r, g, b, a⟩
  | .color, [low, high] =>
    let n := Bytes.little [low, high]
    ⟨widen 5 (n / 1024), widen 5 (n / 32), widen 5 n, 255⟩
  | _, _ => .transparent

/-- The bytes of the colour that a pixel has. -/
def colorBytes? (h : Header) (bytes : ByteArray) (stored : List UInt8) : Option (List UInt8) :=
  if h.isIndexed then
    let place := Bytes.little stored
    if place < h.tableStart || h.tableStart + h.tableLength ≤ place then none
    else Bytes.part? bytes (h.tablePos + (place - h.tableStart) * h.entryBytes) h.entryBytes
  else some stored

/-- The picture in a file. The first pixel is the one at the lower left, unless the header says
otherwise. -/
def decode? (bytes : ByteArray) : Option Frame := do
  let h ← Header.read? bytes
  let channels ← h.channels?
  if !h.isSound || bytes.size < h.start then none
  else
    let data ← pixelData? h bytes
    let colors ← (List.range (h.width * h.height)).mapM fun i =>
      (colorBytes? h bytes
        (data.extract (i * h.pixelBytes) ((i + 1) * h.pixelBytes)).toList).map (pixel channels)
    let colors := colors.toArray
    pure (Frame.ofFn h.width h.height fun x y =>
      let x := if h.description.testBit 4 then h.width - 1 - x else x
      let y := if h.description.testBit 5 then y else h.height - 1 - y
      colors.getD (y * h.width + x) .transparent)

end RegionCapture.Picture.Targa
