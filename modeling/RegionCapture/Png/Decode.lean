import RegionCapture.Bytes
import RegionCapture.Frame
import RegionCapture.Png.Checksum
import RegionCapture.Png.Inflate
/-!
# Reading pictures

Frames from PNG files, whatever their colour type, depth and interlacing. Samples of another depth
are brought to eight bits.
-/

namespace RegionCapture.Png

/-- What every file begins with. -/
def signature : ByteArray := ⟨#[137, 80, 78, 71, 13, 10, 26, 10]⟩

/-- The number of four bytes at a position. -/
def word? (bytes : ByteArray) (pos : Nat) : Option Nat := Bytes.bigAt? bytes pos 4

/-- A named part of a file. -/
structure Chunk where
  name : List UInt8
  content : ByteArray

/-- The chunks up to the one that ends the file. Every chunk takes twelve bytes at least. -/
def chunks? (bytes : ByteArray) : Nat → Nat → Option (List Chunk)
  | 0, _ => none
  | fuel + 1, pos =>
    match word? bytes pos with
    | none => none
    | some length =>
      match word? bytes (pos + 8 + length) with
      | none => none
      | some sum =>
        let named := bytes.extract (pos + 4) (pos + 8 + length)
        if (crc32 named).toNat ≠ sum then none
        else
          let chunk : Chunk := ⟨(named.extract 0 4).data.toList, named.extract 4 named.size⟩
          if chunk.name = "IEND".toUTF8.data.toList then some [chunk]
          else (chunks? bytes fuel (pos + 12 + length)).map (chunk :: ·)

/-- How pixels are stored. -/
structure PixelFormat where
  depth : Nat
  /-- Samples in a pixel. -/
  channels : Nat
  isColor : Bool
  hasAlpha : Bool
  isIndexed : Bool

/-- The format with a colour type and a depth. -/
def PixelFormat.of? (colorType depth : Nat) : Option PixelFormat :=
  match colorType with
  | 0 => if [1, 2, 4, 8, 16].contains depth then some ⟨depth, 1, false, false, false⟩ else none
  | 2 => if [8, 16].contains depth then some ⟨depth, 3, true, false, false⟩ else none
  | 3 => if [1, 2, 4, 8].contains depth then some ⟨depth, 1, true, false, true⟩ else none
  | 4 => if [8, 16].contains depth then some ⟨depth, 2, false, true, false⟩ else none
  | 6 => if [8, 16].contains depth then some ⟨depth, 4, true, true, false⟩ else none
  | _ => none

/-- The bytes of a row of some pixels. -/
def PixelFormat.rowBytes (f : PixelFormat) (width : Nat) : Nat :=
  (f.channels * f.depth * width + 7) / 8

/-- The bytes from a sample to the same one of the pixel before; one if pixels are smaller. -/
def PixelFormat.step (f : PixelFormat) : Nat := max 1 (f.channels * f.depth / 8)

/-- Of left, above and upper left, the one nearest to left plus above less upper left. -/
def paeth (a b c : Nat) : Nat :=
  let p : Int := a + b - c
  let pa := (p - a).natAbs
  let pb := (p - b).natAbs
  let pc := (p - c).natAbs
  if pa ≤ pb && pa ≤ pc then a else if pb ≤ pc then b else c

/-- What a filter adds to a byte, from the bytes to the left, above and to the upper left. -/
def prediction? (kind a b c : Nat) : Option Nat :=
  match kind with
  | 0 => some 0
  | 1 => some a
  | 2 => some b
  | 3 => some ((a + b) / 2)
  | 4 => some (paeth a b c)
  | _ => none

/-- A row with its filter undone, given the row above. -/
def unfilterRow? (kind step : Nat) (above row : ByteArray) : Option ByteArray :=
  (List.range row.size).foldlM (fun (out : ByteArray) i =>
    let a := if step ≤ i then (out.get! (i - step)).toNat else 0
    let b := if i < above.size then (above.get! i).toNat else 0
    let c := if step ≤ i && i < above.size then (above.get! (i - step)).toNat else 0
    (prediction? kind a b c).map fun p => out.push ((row.get! i).toNat + p).toUInt8) ByteArray.empty

/-- Rows with their filters undone, from a position on. -/
def rows? (data : ByteArray) (rowBytes step : Nat) : Nat → Nat → ByteArray →
    Option (List ByteArray)
  | 0, _, _ => some []
  | count + 1, pos, above =>
    if data.size < pos + 1 + rowBytes then none
    else
      match unfilterRow? (data.get! pos).toNat step above
          (data.extract (pos + 1) (pos + 1 + rowBytes)) with
      | none => none
      | some row => (rows? data rowBytes step count (pos + 1 + rowBytes) row).map (row :: ·)

/-- A grid of pixels that are stored together: the first column and row, and the steps between. -/
structure Pass where
  x : Nat
  y : Nat
  dx : Nat
  dy : Nat

/-- The passes of an interlaced picture; together they hold every pixel once. -/
def interlaced : List Pass :=
  [⟨0, 0, 8, 8⟩, ⟨4, 0, 8, 8⟩, ⟨0, 4, 4, 8⟩, ⟨2, 0, 4, 4⟩, ⟨0, 2, 2, 4⟩, ⟨1, 0, 2, 2⟩, ⟨0, 1, 1, 2⟩]

/-- How many steps of a pass fit into a side. -/
def stepsIn (first step side : Nat) : Nat := (side + step - 1 - first) / step

/-- The passes with the rows of each, taken from the data one after the other. -/
def readPasses? (f : PixelFormat) (width height : Nat) (data : ByteArray) : List Pass → Nat →
    Option (List (Pass × Array ByteArray))
  | [], _ => some []
  | p :: rest, pos =>
    let columns := stepsIn p.x p.dx width
    let count := if columns = 0 then 0 else stepsIn p.y p.dy height
    let rowBytes := f.rowBytes columns
    match rows? data rowBytes f.step count pos ByteArray.empty with
    | none => none
    | some rows =>
      (readPasses? f width height data rest (pos + count * (rowBytes + 1))).map
        ((p, rows.toArray) :: ·)

/-- A sample of a row. -/
def sampleAt (depth : Nat) (row : ByteArray) (i : Nat) : Nat :=
  if depth = 16 then 256 * (row.get! (2 * i)).toNat + (row.get! (2 * i + 1)).toNat
  else
    let bit := depth * i
    (row.get! (bit / 8)).toNat >>> (8 - depth - bit % 8) % 1 <<< depth

/-- A sample brought to eight bits. -/
def toByte (depth sample : Nat) : UInt8 :=
  (if depth = 16 then (sample + 128) / 257 else sample * 255 / (1 <<< depth - 1)).toUInt8

/-- The colours and opacities that an indexed picture names. -/
structure Palette where
  colors : ByteArray
  alphas : ByteArray

/-- A colour of a palette. -/
def Palette.color (p : Palette) (i : Nat) : Rgba :=
  let channel (k : Nat) : UInt8 :=
    if 3 * i + k < p.colors.size then p.colors.get! (3 * i + k) else 0
  ⟨channel 0, channel 1, channel 2, if i < p.alphas.size then p.alphas.get! i else 255⟩

/-- A pixel from its samples. The samples in `clear` stand for no colour at all. -/
def pixelOf (f : PixelFormat) (palette : Palette) (clear : Option (List Nat))
    (samples : List Nat) : Rgba :=
  let byte (i : Nat) : UInt8 := toByte f.depth (samples.getD i 0)
  if f.isIndexed then palette.color (samples.getD 0 0)
  else
    let last := f.channels - 1
    let alpha : UInt8 := if f.hasAlpha then byte last else if clear = some samples then 0 else 255
    if f.isColor then ⟨byte 0, byte 1, byte 2, alpha⟩ else ⟨byte 0, byte 0, byte 0, alpha⟩

/-- The content of all chunks with a name. -/
def contentOf (chunks : List Chunk) (name : String) : ByteArray :=
  (chunks.filter (·.name = name.toUTF8.data.toList)).foldl (fun out c => out ++ c.content)
    ByteArray.empty

/-- The samples that stand for no colour, if there are any. -/
def clearSamples (f : PixelFormat) (content : ByteArray) : Option (List Nat) :=
  if f.isIndexed || content.size < 2 * f.channels then none
  else some ((List.range f.channels).map fun i =>
    256 * (content.get! (2 * i)).toNat + (content.get! (2 * i + 1)).toNat)

/-- The picture in a file. -/
def decode? (bytes : ByteArray) : Option Frame := do
  if (bytes.extract 0 8).data.toList ≠ signature.data.toList then none
  else
    let chunks ← chunks? bytes bytes.size 8
    let header := contentOf chunks "IHDR"
    let width ← word? header 0
    let height ← word? header 4
    if header.size ≠ 13 || width = 0 || height = 0 || header.get! 10 ≠ 0 || header.get! 11 ≠ 0 then
      none
    else
      let f ← PixelFormat.of? (header.get! 9).toNat (header.get! 8).toNat
      let data ← inflate? (contentOf chunks "IDAT")
      let passes := if header.get! 12 = 1 then interlaced else [⟨0, 0, 1, 1⟩]
      let stored ← readPasses? f width height data passes 0
      let alphas := contentOf chunks "tRNS"
      let palette : Palette := ⟨contentOf chunks "PLTE", alphas⟩
      let clear := clearSamples f alphas
      pure (Frame.ofFn width height fun x y =>
        match stored.find? fun (p, _) => x % p.dx = p.x && y % p.dy = p.y with
        | none => .transparent
        | some (p, rows) =>
          let row := rows.getD (y / p.dy) ByteArray.empty
          pixelOf f palette clear ((List.range f.channels).map fun k =>
            sampleAt f.depth row (f.channels * (x / p.dx) + k)))

end RegionCapture.Png
