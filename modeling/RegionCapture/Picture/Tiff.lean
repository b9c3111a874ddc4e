import RegionCapture.Picture.Lzw
import RegionCapture.Picture.Sample
import RegionCapture.Picture.Tiff.Directory
/-!
# Tagged pictures

Pictures whose fields stand in a directory. The pixels come in pieces, which are strips of rows or
tiles; a piece may be compressed, and a sample may be given by its difference from the one before.
-/

namespace RegionCapture.Picture.Tiff

/-- What the samples of a pixel are. -/
inductive Meaning where
  | light (channels : Channels)
  /-- Samples are less the more light there is. -/
  | darkness
  /-- Cyan, magenta, yellow and black. -/
  | ink
  deriving DecidableEq, Repr

namespace Meaning

/-- Samples in a pixel. -/
def count : Meaning → Nat
  | light channels => channels.count
  | darkness => 1
  | ink => 4

/-- The number of bits that samples may have. -/
def depths : Meaning → List Nat
  | light .gray | darkness => [1, 8, 16]
  | light .grayAlpha | ink => [8, 16]
  | light .color | light .colorAlpha => [8, 16, 32]

/-- The meaning of so many samples under a number for what they stand for. A second sample of gray
has to be said to be an opacity. -/
def of? (interpretation samples : Nat) (extra : List Nat) : Option Meaning :=
  match interpretation, samples with
  | 0, 1 => some darkness
  | 1, 1 => some (light .gray)
  | 1, 2 => if extra = [1] || extra = [2] then some (light .grayAlpha) else none
  | 2, 3 => some (light .color)
  | 2, 4 => some (light .colorAlpha)
  | 5, 4 => some ink
  | _, _ => none

/-- Light in one of the colours, under its ink and under black. -/
def inked (full ink black : Nat) : Nat :=
  let light := (full.toFloat32 - ink.toFloat32) * (1 - black.toFloat32 / full.toFloat32)
  light.toUInt16.toNat

/-- A sample of some bits brought to eight. -/
def toByte (bits sample : Nat) : UInt8 :=
  match bits with
  | 32 => ofUnit (Float32.ofBits sample.toUInt32)
  | 16 => narrow sample
  | bits => widen bits sample

/-- A pixel from its samples. -/
def pixel (m : Meaning) (bits : Nat) (sample : Nat → Nat) : Rgba :=
  let full := 1 <<< bits - 1
  match m with
  | light channels => channels.pixel fun k => toByte bits (sample k)
  | darkness => Channels.gray.pixel fun k => toByte bits (full - sample k)
  | ink => Channels.color.pixel fun k => toByte bits (inked full (sample k) (sample 3))

end Meaning

/-- How the bytes of a piece are stored. -/
inductive Packing where
  | plain
  | lzw
  | deflate
  | packets
  deriving DecidableEq, Repr

namespace Packing

/-- The packing with a number. -/
def ofNat? : Nat → Option Packing
  | 1 => some plain
  | 5 => some lzw
  | 8 | 32946 => some deflate
  | 32773 => some packets
  | _ => none

/-- Packets unpacked, until there is as much as is wanted. A packet is one byte to be repeated, or
some bytes as they are. -/
def unpackPackets? (wanted : Nat) (bytes : List UInt8) : Option (List UInt8) :=
  if wanted = 0 then some []
  else match bytes with
    | [] => none
    | first :: rest =>
      let stored := if first < 128 then min wanted (first.toNat + 1) else
        if first = 128 then 0 else 1
      let content := rest.take stored
      if content.length < stored then none
      else
        let content := if first ≤ 128 then content
          else (List.replicate (min wanted (257 - first.toNat)) content).flatten
        (unpackPackets? (wanted - content.length) (rest.drop stored)).map (content ++ ·)
termination_by bytes.length

/-- The first bytes of a piece, as many as are wanted. Only packing tells where a piece ends. -/
def unpack? (p : Packing) (bytes : ByteArray) (start length wanted : Nat) : Option ByteArray := do
  let stored := bytes.extract start (start + length)
  let content ← match p with
    | plain => pure (bytes.extract start (start + wanted))
    | lzw => Lzw.unpack? ⟨true, 8, true⟩ stored wanted
    | deflate => Png.inflate? (bytes.extract start bytes.size)
    | packets => (unpackPackets? wanted stored.data.toList).map List.toByteArray
  if content.size < wanted then none else pure content

end Packing

/-- The pieces of a picture, row by row. -/
structure Grid where
  /-- Columns of a piece. -/
  width : Nat
  /-- Rows of a piece. -/
  height : Nat
  starts : List Nat
  lengths : List Nat

/-- What a directory says about the pixels. -/
structure Raster where
  form : Form
  width : Nat
  height : Nat
  meaning : Meaning
  /-- Bits of a sample. -/
  bits : Nat
  packing : Packing
  /-- Samples are given by their differences. -/
  isDifferenced : Bool
  grid : Grid

namespace Raster

/-- The largest number in sixteen bits. -/
def maxShort : Nat := 65535

/-- A field for a number of sixteen bits. -/
def short? (d : Directory) (tag missing : Nat) : Option Nat := do
  let n ← d.valueOr? tag missing
  if maxShort < n then none else pure n

/-- A field for a side, which is not zero. -/
def side? (d : Directory) (tag : Nat) : Option Nat := do
  let n ← d.value? tag
  if n = 0 || 0x100000000 ≤ n then none else pure n

/-- The pieces of a picture with the given sides: strips, or tiles, but not both. -/
def grid? (d : Directory) (width height : Nat) : Option Grid := do
  let isStripped := d.has 273 && d.has 279
  let isTiled := d.has 324 && d.has 325
  if isStripped && !d.has 324 && !d.has 325 then
    let rows ← if d.has 278 then side? d 278 else pure height
    pure ⟨width, rows, ← d.values? 273, ← d.values? 279⟩
  else if isTiled && !d.has 273 && !d.has 279 then
    pure ⟨← side? d 322, ← side? d 323, ← d.values? 324, ← d.values? 325⟩
  else none

/-- Samples are of the kind that goes with their bits: whole numbers, or floating-point numbers of
32 bits. -/
def hasFormats (d : Directory) (bits : Nat) : Bool :=
  match d.valuesOr? 339 [if bits = 32 then 3 else 1] with
  | none | some [] => false
  | some formats => formats.all fun format => format = if bits = 32 then 3 else 1

/-- What a directory says. Only whole bytes have differences. -/
def ofDirectory? (d : Directory) : Option Raster := do
  let width ← side? d 256
  let height ← side? d 257
  let interpretation ← short? d 262 0
  let packing ← Packing.ofNat? (← short? d 259 1)
  let samples ← short? d 277 1
  let depths ← d.valuesOr? 258 [1]
  let bits ← depths.head?
  let difference ← short? d 317 1
  let arrangement ← short? d 284 1
  let meaning ← Meaning.of? interpretation samples (← d.valuesOr? 338 [])
  let grid ← grid? d width height
  if !d.has 262 || !hasFormats d bits || depths.any (· ≠ bits)
      || (depths.length ≠ samples && depths.length ≠ 1) || bits ∉ meaning.depths
      || difference ∉ [1, 2] || (difference = 2 && (bits = 1 || (bits = 32 && d.has 339)))
      || !(arrangement = 1 || (arrangement = 2 && samples = 1)) then
    none
  else pure ⟨d.form, width, height, meaning, bits, packing, difference = 2, grid⟩

/-- Pieces beside each other. -/
def across (r : Raster) : Nat := (r.width - 1) / r.grid.width + 1

/-- Pieces below each other. -/
def down (r : Raster) : Nat := (r.height - 1) / r.grid.height + 1

/-- Bits of some pixels beside each other. -/
def pixelBits (r : Raster) (count : Nat) : Nat := count * r.bits * r.meaning.count

/-- Bytes of some pixels beside each other. -/
def rowBytes (r : Raster) (count : Nat) : Nat := (r.pixelBits count + 7) / 8

/-- There are as many pieces as the picture needs, and each begins with a whole byte of its rows. -/
def isCovered (r : Raster) : Bool :=
  r.grid.starts.length = r.across * r.down && r.grid.lengths.length = r.across * r.down
    && (r.across = 1 || r.pixelBits r.grid.width % 8 = 0)

/-- The sample with an index in the row that begins at a position. -/
def sampleAt (r : Raster) (content : ByteArray) (row i : Nat) : Nat :=
  if r.bits = 1 then
    if (content.get! (row + i / 8)).toNat.testBit (7 - i % 8) then 1 else 0
  else
    let size := r.bits / 8
    r.form.number ((List.range size).map fun k => content.get! (row + i * size + k))

/-- Samples from their differences, for so many in a pixel. -/
def summed (bits count : Nat) (samples : Array Nat) : Array Nat :=
  (List.range samples.size).foldl (fun sums i =>
    let before := if i < count then 0 else sums.getD (i - count) 0
    sums.push ((before + samples.getD i 0) % 1 <<< bits)) #[]

/-- The rows of samples of a piece. It may end before what is outside of the picture. -/
def piece? (r : Raster) (bytes : ByteArray) (i start length : Nat) :
    Option (Array (Array Nat)) := do
  let width := min r.grid.width (r.width - i % r.across * r.grid.width)
  let height := min r.grid.height (r.height - i / r.across * r.grid.height)
  let stride := r.rowBytes r.grid.width
  let content ← r.packing.unpack? bytes start length ((height - 1) * stride + r.rowBytes width)
  let rows := (List.range height).map fun y =>
    let count := width * r.meaning.count
    let samples := ((List.range count).map (r.sampleAt content (y * stride))).toArray
    if r.isDifferenced then summed r.bits r.meaning.count samples else samples
  pure rows.toArray

/-- The picture whose pieces are in a file. -/
def frame? (r : Raster) (bytes : ByteArray) : Option Frame := do
  if !r.isCovered then none
  else
    let pieces ← (r.grid.starts.zip r.grid.lengths).zipIdx.mapM fun ((start, length), i) =>
      r.piece? bytes i start length
    let pieces := pieces.toArray
    pure (Frame.ofFn r.width r.height fun x y =>
      let rows := pieces.getD (y / r.grid.height * r.across + x / r.grid.width) #[]
      let row := rows.getD (y % r.grid.height) #[]
      let first := x % r.grid.width * r.meaning.count
      r.meaning.pixel r.bits fun k => row.getD (first + k) 0)

end Raster

/-- The picture in a file. -/
def decode? (bytes : ByteArray) : Option Frame := do
  (← Raster.ofDirectory? (← Directory.read? bytes)).frame? bytes

end RegionCapture.Picture.Tiff
