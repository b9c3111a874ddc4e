import RegionCapture.Bytes
import RegionCapture.Picture.Sample
/-!
# Surfaces in blocks

Pictures in blocks of four by four pixels. A block has two colours and gives every pixel one of
them, or one in between; its opacities stand before the colours.
-/

namespace RegionCapture.Picture.Dds

/-- How the opacity of a block is stored. -/
inductive Opacity where
  /-- Every pixel is opaque. -/
  | full
  /-- Four bits for each pixel. -/
  | levels
  /-- Two opacities, and for each pixel one of them or one in between. -/
  | blended
  deriving DecidableEq, Repr

namespace Opacity

/-- Bytes of a block. -/
def blockBytes : Opacity → Nat
  | full => 8
  | levels | blended => 16

/-- The opacity that goes with a name of four letters. -/
def ofName? (name : List UInt8) : Option Opacity :=
  if name = "DXT1".toUTF8.data.toList then some full
  else if name = "DXT3".toUTF8.data.toList then some levels
  else if name = "DXT5".toUTF8.data.toList then some blended
  else none

/-- The opacity that goes with the number of a format. -/
def ofNumber? (n : Nat) : Option Opacity :=
  if 70 ≤ n && n ≤ 72 then some full
  else if 73 ≤ n && n ≤ 75 then some levels
  else if 76 ≤ n && n ≤ 78 then some blended
  else none

end Opacity

/-! ## Header -/

/-- What a header says. -/
structure Header where
  width : Nat
  height : Nat
  opacity : Opacity
  /-- Where the first block begins. -/
  start : Nat

namespace Header

/-- Bits that every header has set. -/
def requiredFlags : Nat := 0x1007

/-- Bits that a header may have set. -/
def knownFlags : Nat := 0x8a100f

/-- The opacity that an extended header names. -/
def extended? (bytes : ByteArray) : Option Opacity := do
  let format ← Bytes.littleAt? bytes 128 4
  let dimension ← Bytes.littleAt? bytes 132 4
  let flags ← Bytes.littleAt? bytes 136 4
  let count ← Bytes.littleAt? bytes 140 4
  let alphaFlags ← Bytes.littleAt? bytes 144 4
  if dimension ∉ [2, 3, 4] || flags ∉ [0, 4] || (dimension = 4 && count ≠ 1)
      || 4 < alphaFlags then
    none
  else Opacity.ofNumber? format

/-- The header of a file. Sides are whole blocks. -/
def read? (bytes : ByteArray) : Option Header := do
  let magic ← Bytes.part? bytes 0 4
  let size ← Bytes.littleAt? bytes 4 4
  let flags ← Bytes.littleAt? bytes 8 4
  let height ← Bytes.littleAt? bytes 12 4
  let width ← Bytes.littleAt? bytes 16 4
  let formatSize ← Bytes.littleAt? bytes 76 4
  let formatFlags ← Bytes.littleAt? bytes 80 4
  let name ← Bytes.part? bytes 84 4
  if magic ≠ "DDS ".toUTF8.data.toList || size ≠ 124 || bytes.size < 128
      || flags &&& requiredFlags ≠ requiredFlags || flags ||| knownFlags ≠ knownFlags
      || formatSize ≠ 32 || !formatFlags.testBit 2 || width % 4 ≠ 0 || height % 4 ≠ 0 then
    none
  else if name = "DX10".toUTF8.data.toList then
    pure ⟨width, height, ← extended? bytes, 148⟩
  else pure ⟨width, height, ← Opacity.ofName? name, 128⟩

end Header

/-! ## Blocks -/

/-- Red, green and blue in five, six and five bits, brought to eight. -/
def colorParts (n : Nat) : List Nat :=
  [n / 2048 % 32 * 255 / 31, n / 32 % 64 * 255 / 63, n % 32 * 255 / 31]

/-- Two colours mixed, the first with a weight of `k` out of `total`. -/
def mix (k total : Nat) (c c' : List Nat) : List Nat :=
  List.zipWith (fun v v' => (k * v + (total - k) * v' + 1) / total) c c'

/-- The four colours of a block with two. If every pixel is opaque and the first is not the larger,
the last colour is black. -/
def palette (opacity : Opacity) (n n' : Nat) : List (List Nat) :=
  let c := colorParts n
  let c' := colorParts n'
  if n' < n || opacity ≠ .full then [c, c', mix 2 3 c c', mix 1 3 c c']
  else [c, c', mix 1 2 c c', [0, 0, 0]]

/-- The eight opacities of a block with two. -/
def alphas (a a' : Nat) : List Nat :=
  if a' < a then
    [a, a'] ++ (List.range 6).map fun i => ((6 - i) * a + (i + 1) * a') / 7
  else
    [a, a'] ++ ((List.range 4).map fun i => ((4 - i) * a + (i + 1) * a') / 5) ++ [0, 255]

/-- The opacity of a pixel, from the bytes of its block. -/
def alphaAt (opacity : Opacity) (block : List UInt8) (i : Nat) : Nat :=
  match opacity with
  | .full => 255
  | .levels => Bytes.little (block.take 8) >>> (4 * i) % 16 * 17
  | .blended =>
    let choices := Bytes.little ((block.take 8).drop 2)
    (alphas (Bytes.little (block.take 1)) (Bytes.little ((block.take 2).drop 1))).getD
      (choices >>> (3 * i) % 8) 0

/-- A pixel of a block. -/
def pixelAt (opacity : Opacity) (block : List UInt8) (i : Nat) : Rgba :=
  let colors := block.drop (opacity.blockBytes - 8)
  let choice := Bytes.little (colors.drop 4) >>> (2 * i) % 4
  let parts := (palette opacity (Bytes.little (colors.take 2))
    (Bytes.little ((colors.drop 2).take 2))).getD choice []
  match parts with
  | [r, g, b] => ⟨r.toUInt8, g.toUInt8, b.toUInt8, (alphaAt opacity block i).toUInt8⟩
  | _ => .transparent

/-- The picture in a file. -/
def decode? (bytes : ByteArray) : Option Frame := do
  let h ← Header.read? bytes
  let size := h.opacity.blockBytes
  if bytes.size < h.start + h.width / 4 * (h.height / 4) * size then none
  else
    pure (Frame.ofFn h.width h.height fun x y =>
      let pos := h.start + (y / 4 * (h.width / 4) + x / 4) * size
      pixelAt h.opacity (bytes.extract pos (pos + size)).data.toList (y % 4 * 4 + x % 4))

end RegionCapture.Picture.Dds
