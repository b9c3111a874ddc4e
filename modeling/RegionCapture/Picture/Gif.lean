import RegionCapture.Bytes
import RegionCapture.Picture.Lzw
import RegionCapture.Picture.Sample
/-!
# Pictures on a screen

The first of some pictures that are shown on a screen, which is clear elsewhere. Pixels are places
in a table of colours, which the picture brings or shares with the others.
-/

namespace RegionCapture.Picture.Gif

/-- A table of colours in a file: where it begins, and its length. -/
structure Table where
  start : Nat
  length : Nat

namespace Table

/-- The table whose length is in some flags, if they say that there is one. -/
def ofFlags? (flags start : Nat) : Option Table :=
  if flags.testBit 7 then some ⟨start, 2 <<< (flags % 8)⟩ else none

/-- Where a table that begins at a position ends, if there is one. -/
def finish (table : Option Table) (start : Nat) : Nat :=
  table.elim start fun t => start + 3 * t.length

/-- A colour of the table; none beyond its end. -/
def color? (t : Table) (bytes : ByteArray) (place : Nat) : Option Rgba :=
  if t.length ≤ place then none
  else
    let pos := t.start + 3 * place
    some ⟨bytes.get! pos, bytes.get! (pos + 1), bytes.get! (pos + 2), 255⟩

end Table

/-- The content of the parts from a position on, up to an empty one, and where that ends. Parts have
at most 255 bytes; the last may be cut. -/
def parts (bytes : ByteArray) : (fuel pos : Nat) → ByteArray → ByteArray × Nat
  | 0, pos, content => (content, pos)
  | fuel + 1, pos, content =>
    match Bytes.littleAt? bytes pos 1 with
    | none => (content, pos)
    | some 0 => (content, pos + 1)
    | some size =>
      parts bytes fuel (pos + 1 + size) (content ++ bytes.extract (pos + 1) (pos + 1 + size))

/-- Where the first picture begins, and the place that is clear in it. Extensions come before it,
one of which is for that place. -/
def findPicture? (bytes : ByteArray) : (fuel pos : Nat) → Option Nat → Option (Nat × Option Nat)
  | 0, _, _ => none
  | fuel + 1, pos, clear =>
    match Bytes.littleAt? bytes pos 1 with
    | some 0x2c => some (pos + 1, clear)
    | some 0x21 =>
      match Bytes.littleAt? bytes (pos + 1) 1 with
      | none => none
      | some label =>
        let (content, next) := parts bytes bytes.size (pos + 2) ByteArray.empty
        let clear :=
          if label ≠ 0xf9 || content.size ≠ 4 then clear
          else if (content.get! 0).toNat.testBit 0 then some (content.get! 3).toNat
          else none
        findPicture? bytes fuel next clear
    | _ => none

/-- What a file says about a picture. -/
structure Placement where
  left : Nat
  top : Nat
  width : Nat
  height : Nat
  isInterlaced : Bool
  table : Table
  /-- Bits of a place before they are packed. -/
  symbolBits : Nat
  /-- Where the packed places begin. -/
  start : Nat

namespace Placement

/-- The picture at a position. Without a table of its own it has the shared one. -/
def read? (bytes : ByteArray) (pos : Nat) (shared : Option Table) : Option Placement := do
  let left ← Bytes.littleAt? bytes pos 2
  let top ← Bytes.littleAt? bytes (pos + 2) 2
  let width ← Bytes.littleAt? bytes (pos + 4) 2
  let height ← Bytes.littleAt? bytes (pos + 6) 2
  let flags ← Bytes.littleAt? bytes (pos + 8) 1
  let own := Table.ofFlags? flags (pos + 9)
  let start := Table.finish own (pos + 9)
  let table ← own.orElse fun _ => shared
  let symbolBits ← Bytes.littleAt? bytes start 1
  if symbolBits = 0 || 11 < symbolBits then none
  else pure ⟨left, top, width, height, flags.testBit 6, table, symbolBits, start + 1⟩

/-- The rows in the order in which they are stored: every eighth, those between these, and so on. -/
def rowOrder (p : Placement) : List Nat :=
  let every (step first : Nat) := (List.range p.height).filter fun y => y % step = first
  if p.isInterlaced then every 8 0 ++ every 8 4 ++ every 4 2 ++ every 2 1 else List.range p.height

/-- The places of all pixels, as they are stored. -/
def places? (p : Placement) (bytes : ByteArray) : Option ByteArray :=
  let (stored, _) := parts bytes bytes.size p.start ByteArray.empty
  Lzw.unpack? ⟨false, p.symbolBits, false⟩ stored (p.width * p.height)

/-- A pixel of the screen is in the picture. -/
def contains (p : Placement) (x y : Nat) : Bool :=
  p.left ≤ x && p.top ≤ y && x < p.left + p.width && y < p.top + p.height

/-- The colour with a place, which may be the clear one. -/
def color (p : Placement) (bytes : ByteArray) (clear : Option Nat) (place : Nat) : Rgba :=
  let color := (p.table.color? bytes place).getD .transparent
  if clear = some place then { color with a := 0 } else color

end Placement

/-- The picture in a file. -/
def decode? (bytes : ByteArray) : Option Frame := do
  let signature ← Bytes.part? bytes 0 6
  let width ← Bytes.littleAt? bytes 6 2
  let height ← Bytes.littleAt? bytes 8 2
  let shared := Table.ofFlags? (← Bytes.littleAt? bytes 10 1) 13
  let first := Table.finish shared 13
  if signature ∉ ["GIF87a".toUTF8.data.toList, "GIF89a".toUTF8.data.toList] || bytes.size < first
      || maxSamples < width * height * 4 then
    none
  else
    let (pos, clear) ← findPicture? bytes bytes.size first none
    let p ← Placement.read? bytes pos shared
    let places ← p.places? bytes
    let storedAt := p.rowOrder.zipIdx.foldl (fun (rows : Array Nat) (y, i) =>
      rows.setIfInBounds y i) (Array.replicate p.height 0)
    pure (Frame.ofFn width height fun x y =>
      if p.contains x y then
        let row := storedAt.getD (y - p.top) 0
        p.color bytes clear (places.get! (row * p.width + (x - p.left))).toNat
      else .transparent)

end RegionCapture.Picture.Gif
