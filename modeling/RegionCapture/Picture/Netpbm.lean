import RegionCapture.Picture.Sample
import RegionCapture.Text.Blank
import RegionCapture.Text.Numeral
/-!
# Netpbm

Bitmaps, graymaps and pixmaps, written as text or as bytes, and the arbitrary maps that name what
their samples stand for. A file is read as characters, one for each byte.
-/

namespace RegionCapture.Picture.Netpbm

/-- A byte as a character. -/
def character (b : UInt8) : Char := Char.ofNat b.toNat

/-- White space between the numbers of a file. -/
def isSpace (c : Char) : Bool := c = ' ' || (0x09 ≤ c.toNat && c.toNat ≤ 0x0D)

/-- A character of ASCII. -/
def isAscii (c : Char) : Bool := c.toNat < 128

/-- How the pixels of a picture are written. -/
structure Raster where
  width : Nat
  height : Nat
  channels : Channels
  /-- Samples have sixteen bits, not eight. -/
  isWide : Bool
  /-- The sample that stands for full intensity. -/
  largest : Nat
  /-- Samples are zero or one; others are refused. -/
  isBits : Bool

namespace Raster

/-- The number of samples. -/
def count (r : Raster) : Nat := r.width * r.height * r.channels.count

/-- The largest number that a sample has room for. -/
def full (r : Raster) : Nat := if r.isWide then 65535 else 255

/-- A sample stretched to the room that it has, with single-precision rounding. -/
def stretch (r : Raster) (sample : Nat) : Nat :=
  if r.largest = r.full then sample
  else
    let factor := r.full.toFloat32 / r.largest.toFloat32
    min r.full (sample.toFloat32 * factor).round.toUInt16.toNat

/-- A sample brought to eight bits. -/
def toByte (r : Raster) (sample : Nat) : UInt8 :=
  if r.isWide then narrow (r.stretch sample) else (r.stretch sample).toUInt8

/-- The picture with the given samples. -/
def frame (r : Raster) (samples : List Nat) : Frame :=
  ofSamples r.width r.height r.channels (samples.map r.toByte).toArray

end Raster

/-! ## Samples -/

/-- As many entries as a picture has, all of them read; there may be more. -/
def readAll? {α β : Type} (count : Nat) (read? : α → Option β) (l : List α) : Option (List β) := do
  let read ← (l.take count).mapM read?
  if read.length = count then some read else none

/-- Samples in decimal, with white space between them. -/
def textSamples? (r : Raster) (text : List Char) : Option (List Nat) :=
  readAll? r.count (fun word => (Text.readNat r.full word).toOption)
    ((Text.split isSpace text).filter fun word => !word.isEmpty)

/-- Samples as bytes, or as two bytes each with the higher one first. -/
def byteSamples? (r : Raster) (text : List Char) : Option (List Nat) := do
  let bytes ← readAll? ((if r.isWide then 2 else 1) * r.count) (fun c => some c.toNat) text
  let samples :=
    if r.isWide then
      let bytes := bytes.toArray
      (List.range r.count).map fun i => 256 * bytes.getD (2 * i) 0 + bytes.getD (2 * i + 1) 0
    else bytes
  if r.isBits && samples.any (1 < ·) then none else some samples

/-- The sample of a bit: set is black. -/
def bitSample : Bool → Nat
  | true => 0
  | false => 1

/-- Bits as digits. White space between them does not count. -/
def textBits? (r : Raster) (text : List Char) : Option (List Nat) :=
  readAll? r.count (fun c => match c with
    | '0' => some (bitSample false)
    | '1' => some (bitSample true)
    | _ => none) (text.filter fun c => !isSpace c)

/-- Bits in bytes, the highest first. Every row begins with a new byte. -/
def byteBits? (r : Raster) (text : List Char) : Option (List Nat) := do
  let rowBytes := (r.width + 7) / 8
  let bytes ← readAll? (r.height * rowBytes) (fun c => some c.toNat) text
  let bytes := bytes.toArray
  pure <| (List.range r.count).map fun i =>
    let x := i % r.width
    bitSample ((bytes.getD (i / r.width * rowBytes + x / 8) 0).testBit (7 - x % 8))

/-! ## Headers of numbers -/

/-- The number that comes next, and what follows the white space after it. A comment goes up to the
end of a line, which belongs to it. -/
def number? (inComment : Bool) (n : Option Nat) : List Char → Option (Nat × List Char)
  | [] => n.map (·, [])
  | c :: cs =>
    if inComment then number? (c ≠ '\n' && c ≠ '\r') n cs
    else if c = '#' then number? true n cs
    else if isSpace c then
      match n with
      | some n => some (n, cs)
      | none => number? false none cs
    else
      match Text.appendDigits Text.maxNat32 (n.getD 0) [c] with
      | .ok n => number? false (some n) cs
      | .error _ => none

/-- The header of a bitmap. -/
def bitmap? (text : List Char) : Option (Raster × List Char) := do
  let (width, text) ← number? false none text
  let (height, text) ← number? false none text
  pure (⟨width, height, .gray, false, 1, true⟩, text)

/-- The header of a graymap or a pixmap. -/
def map? (channels : Channels) (text : List Char) : Option (Raster × List Char) := do
  let (width, text) ← number? false none text
  let (height, text) ← number? false none text
  let (largest, text) ← number? false none text
  if largest = 0 || 65535 < largest then none
  else pure (⟨width, height, channels, 255 < largest, largest, false⟩, text)

/-! ## Headers of lines -/

/-- The first word of a line, and the rest. -/
def keyword (line : List Char) : String × List Char :=
  (String.ofList (line.takeWhile (!isSpace ·)), line.dropWhile (!isSpace ·))

/-- The line ends a header. -/
def endsHeader (line : List Char) : Bool := line.all isAscii && (keyword line).1 = "ENDHDR"

/-- The lines up to the one that ends the header, and what follows it. -/
def lines? (lines : List (List Char)) (line : List Char) :
    List Char → Option (List (List Char) × List Char)
  | [] => if endsHeader line then some (lines, []) else none
  | c :: cs =>
    if c ≠ '\n' then lines? lines (line ++ [c]) cs
    else if endsHeader line then some (lines, cs)
    else lines? (lines ++ [line]) [] cs

/-- What the lines of a header say, so far. -/
structure Fields where
  width : Option Nat
  height : Option Nat
  depth : Option Nat
  largest : Option Nat
  /-- What the samples stand for; words on more than one line are put together. -/
  sort : Option String

/-- A number that a line gives, unless there is one already. -/
def give? (given : Option Nat) (value : List Char) : Option (Option Nat) :=
  match given, Text.readNat Text.maxNat32 (Text.trim value) with
  | none, .ok n => some (some n)
  | _, _ => none

/-- The fields with what one more line says. Comments say nothing. -/
def Fields.add? (f : Fields) (line : List Char) : Option Fields :=
  let (word, value) := keyword line
  if line.head? = some '#' then some f
  else if !line.all isAscii then none
  else match word with
    | "WIDTH" => (give? f.width value).map fun n => { f with width := n }
    | "HEIGHT" => (give? f.height value).map fun n => { f with height := n }
    | "DEPTH" => (give? f.depth value).map fun n => { f with depth := n }
    | "MAXVAL" => (give? f.largest value).map fun n => { f with largest := n }
    | "TUPLTYPE" =>
      let more := String.ofList (Text.trim value)
      some { f with sort := some (f.sort.elim more (· ++ " " ++ more)) }
    | _ => none

/-- The channels with a name, and whether their samples are bits. -/
def channels? (sort : String) : Option (Channels × Bool) :=
  match sort with
  | "BLACKANDWHITE" => some (.gray, true)
  | "BLACKANDWHITE_ALPHA" => some (.grayAlpha, true)
  | "GRAYSCALE" => some (.gray, false)
  | "GRAYSCALE_ALPHA" => some (.grayAlpha, false)
  | "RGB" => some (.color, false)
  | "RGB_ALPHA" => some (.colorAlpha, false)
  | _ => none

/-- How the pixels of an arbitrary map are written. Without a name the number of samples tells what
they stand for, and they are bytes. -/
def raster? (f : Fields) : Option Raster := do
  let width ← f.width
  let height ← f.height
  let depth ← f.depth
  let largest ← f.largest
  let sort := f.sort.getD ""
  if largest = 0 then none
  else if sort = "" then
    let channels ← Channels.ofCount? depth
    pure ⟨width, height, channels, false, largest, false⟩
  else
    let (channels, isBits) ← channels? sort
    if depth ≠ channels.count || (if isBits then 1 else 65535) < largest then none
    else pure ⟨width, height, channels, 255 < largest, largest, isBits⟩

/-- The header of an arbitrary map. -/
def arbitrary? : List Char → Option (Raster × List Char)
  | '\n' :: text => do
    let (lines, text) ← lines? [] [] text
    let fields ← lines.foldlM Fields.add? ⟨none, none, none, none, none⟩
    let r ← raster? fields
    pure (r, text)
  | _ => none

/-! ## Files -/

/-- A picture from its header and samples. -/
def picture? (header : Option (Raster × List Char))
    (samples? : Raster → List Char → Option (List Nat)) : Option Frame := do
  let (r, text) ← header
  let samples ← samples? r text
  pure (r.frame samples)

/-- The picture in a file. What follows it does not count. -/
def decode? (bytes : ByteArray) : Option Frame :=
  match bytes.data.toList.map character with
  | 'P' :: '1' :: text => picture? (bitmap? text) textBits?
  | 'P' :: '2' :: text => picture? (map? .gray text) textSamples?
  | 'P' :: '3' :: text => picture? (map? .color text) textSamples?
  | 'P' :: '4' :: text => picture? (bitmap? text) byteBits?
  | 'P' :: '5' :: text => picture? (map? .gray text) byteSamples?
  | 'P' :: '6' :: text => picture? (map? .color text) byteSamples?
  | 'P' :: '7' :: text => picture? (arbitrary? text) byteSamples?
  | _ => none

end RegionCapture.Picture.Netpbm
