import RegionCapture.Bytes
import RegionCapture.Picture.Bmp.Mask
import RegionCapture.Picture.Bmp.Run
/-!
# Device-independent bitmaps

Rows of pixels from the bottom up, unless the height is negative. Pixels are places in a table of
colours, or numbers that hold the colours. Rows fill whole words; places may also come in runs.
-/

namespace RegionCapture.Picture.Bmp

/-- What a header says about the pixels. -/
structure Header where
  width : Nat
  height : Nat
  isTopDown : Bool
  /-- Bits of a pixel. -/
  depth : Nat
  /-- Places come in runs. -/
  hasRuns : Bool
  /-- Where the colours are in the number of a pixel. -/
  masks : Masks
  /-- Colours in the table; zero for as many as there are places. -/
  colors : Nat
  /-- Where the table begins. -/
  table : Nat
  /-- Bytes of a colour in the table. -/
  entryBytes : Nat

namespace Header

/-- The largest side. -/
def maxSide : Nat := 65535

/-- A short header, which has sides of sixteen bits. -/
def short? (bytes : ByteArray) (pos : Nat) : Option Header := do
  let width ← Bytes.littleAt? bytes (pos + 4) 2
  let height ← Bytes.littleAt? bytes (pos + 6) 2
  let planes ← Bytes.littleAt? bytes (pos + 8) 2
  let depth ← Bytes.littleAt? bytes (pos + 10) 2
  if planes ≠ 1 || depth ∉ [1, 4, 8, 24] then none
  else pure ⟨width, height, false, depth, false, .eightBits, 0, pos + 12, 3⟩

/-- The depths that go with a number for how pixels are compressed. -/
def depths : (compression : Nat) → List Nat
  | 0 => [1, 2, 4, 8, 16, 24, 32]
  | 1 => [8]
  | 2 => [4]
  | 3 => [16, 32]
  | _ => []

/-- The masks after the numbers of a header. Only some headers have one for opacity. -/
def masks? (bytes : ByteArray) (pos size depth : Nat) : Option Masks := do
  let mask? (k : Nat) := do Mask.ofNat? depth (← Bytes.littleAt? bytes (pos + 40 + 4 * k) 4)
  let alpha ← if [56, 108, 124].contains size then mask? 3 else pure ⟨0, 0⟩
  let masks := ⟨← mask? 0, ← mask? 1, ← mask? 2, alpha⟩
  if masks.isWhole then pure masks else none

/-- A header of a given size. Rows in runs are never from the top down. -/
def long? (bytes : ByteArray) (pos size : Nat) : Option Header := do
  let width ← Bytes.littleAt? bytes (pos + 4) 4
  let height ← Bytes.littleAt? bytes (pos + 8) 4
  let planes ← Bytes.littleAt? bytes (pos + 12) 2
  let depth ← Bytes.littleAt? bytes (pos + 14) 2
  let compression ← Bytes.littleAt? bytes (pos + 16) 4
  let colors ← Bytes.littleAt? bytes (pos + 32) 4
  let isTopDown := 0x80000000 < height
  let height := if isTopDown then 0x100000000 - height else height
  let hasRuns := compression = 1 || compression = 2
  if maxSide < width || (!isTopDown && maxSide < height) || planes ≠ 1
      || depth ∉ depths compression || (isTopDown && hasRuns)
      || bytes.size < pos + 40 then
    none
  else
    let masks ← if compression = 3 then masks? bytes pos size depth
      else pure (if depth = 16 then .fiveBits else .eightBits)
    let after := if compression = 3 && [40, 108, 124].contains size then 12 else 0
    pure ⟨width, height, isTopDown, depth, hasRuns, masks, colors, pos + size + after, 4⟩

/-- The header at a position. -/
def read? (bytes : ByteArray) (pos : Nat) : Option Header := do
  let size ← Bytes.littleAt? bytes pos 4
  if size = 12 then short? bytes pos
  else if [40, 52, 56, 108, 124].contains size then long? bytes pos size
  else none

/-- Bytes of a row. -/
def rowBytes (h : Header) : Nat := (h.depth * h.width + 31) / 32 * 4

/-- Pixels are places in a table. -/
def isIndexed (h : Header) : Bool := h.depth ≤ 8

/-- Colours in the table. -/
def tableLength (h : Header) : Nat := if h.colors = 0 then 1 <<< h.depth else h.colors

/-- Where the table ends, if there is one. -/
def tableEnd (h : Header) : Nat :=
  h.table + if h.isIndexed then h.tableLength * h.entryBytes else 0

/-- The table, if there is one, is not longer than it may be and lies in the file. -/
def hasTable (h : Header) (bytes : ByteArray) : Bool :=
  !h.isIndexed || (h.tableLength ≤ 1 <<< h.depth && h.tableEnd ≤ bytes.size)

end Header

/-- A colour of the table; black beyond its end. -/
def tableColor (h : Header) (bytes : ByteArray) (place : Nat) : Rgba :=
  if place < h.tableLength then
    let pos := h.table + place * h.entryBytes
    ⟨bytes.get! (pos + 2), bytes.get! (pos + 1), bytes.get! pos, 255⟩
  else ⟨0, 0, 0, 255⟩

/-- The pixel at a column of the row that begins at a position. -/
def pixelAt (h : Header) (bytes : ByteArray) (row x : Nat) : Rgba :=
  if h.isIndexed then
    let bit := h.depth * x
    let byte := (bytes.get! (row + bit / 8)).toNat
    tableColor h bytes (byte >>> (8 - h.depth - bit % 8) % 1 <<< h.depth)
  else
    let size := h.depth / 8
    h.masks.color (Bytes.little ((List.range size).map fun k => bytes.get! (row + size * x + k)))

/-- The pixels in rows that begin at a position, and where they end. -/
def rows? (h : Header) (bytes : ByteArray) (start : Nat) : Option (Frame × Nat) :=
  let last := start + h.height * h.rowBytes
  if bytes.size < last then none
  else
    let frame := Frame.ofFn h.width h.height fun x y =>
      let y := if h.isTopDown then y else h.height - 1 - y
      pixelAt h bytes (start + y * h.rowBytes) x
    some (frame, last)

/-- The pixels in runs that begin at a position, and where they end. What is left out is black. -/
def runs? (h : Header) (bytes : ByteArray) (start : Nat) : Option (Frame × Nat) :=
  if maxSamples < h.width * h.height * 3 then none
  else do
    let content := (bytes.extract start bytes.size).data.toList
    let (painted, rest) ← (Brush.new h.width h.height).follow? h.depth content
    let frame := Frame.ofFn h.width h.height fun x y =>
      match painted.getD ((h.height - 1 - y) * h.width + x) none with
      | some place => tableColor h bytes place
      | none => ⟨0, 0, 0, 255⟩
    pure (frame, bytes.size - rest.length)

/-- The picture whose pixels begin at a position, and where they end. It may be without rows, but
not without columns. -/
def picture? (h : Header) (bytes : ByteArray) (start : Nat) : Option (Frame × Nat) :=
  if h.width = 0 || !h.hasTable bytes then none
  else if h.hasRuns then runs? h bytes start
  else rows? h bytes start

/-- The picture in a file. -/
def decode? (bytes : ByteArray) : Option Frame := do
  let name ← Bytes.part? bytes 0 2
  let start ← Bytes.littleAt? bytes 10 4
  let h ← Header.read? bytes 14
  if name ≠ "BM".toUTF8.data.toList then none else (picture? h bytes start).map (·.1)

end RegionCapture.Picture.Bmp
