import RegionCapture.Picture.Sample
import RegionCapture.Picture.Webp.Code
/-!
# Streams of pixels

Pixels one by one, as copies of pixels before, or as colours that were there not long ago. Each
place of a picture has codes of its own if the picture says so.
-/

namespace RegionCapture.Picture.Webp

/-- Rows of pixels, one after the other. -/
structure Raster where
  width : Nat
  height : Nat
  pixels : Array Rgba

namespace Raster

/-- A pixel by its index. -/
def pixel (r : Raster) (i : Nat) : Rgba := r.pixels.getD i .transparent

end Raster

/-- Sides in blocks of `2 ^ bits` pixels. -/
def blocks (side bits : Nat) : Nat := (side + 1 <<< bits - 1) >>> bits

/-! ## Colours that were there -/

/-- Colours by a number of some bits that is made from them. -/
structure Cache where
  bits : Nat
  colors : Array Rgba

namespace Cache

/-- A cache of black that is clear. -/
def new (bits : Nat) : Cache := ⟨bits, Array.replicate (1 <<< bits) .transparent⟩

/-- The place of a colour. -/
def place (c : Cache) (color : Rgba) : Nat :=
  let word := ((color.a.toNat * 256 + color.r.toNat) * 256 + color.g.toNat) * 256 + color.b.toNat
  (word * 0x1e35a7bd % 0x100000000) >>> (32 - c.bits)

/-- The cache after a colour. -/
def add (c : Cache) (color : Rgba) : Cache :=
  { c with colors := c.colors.setIfInBounds (c.place color) color }

/-- A cache of a size that is given, if there is any. -/
def read : Reader (Option Cache) := do
  if ← flag then
    let size ← Webp.bits 4
    if size = 0 || 11 < size then failure else pure (some (new size))
  else pure none

end Cache

/-! ## Codes -/

/-- The codes of a part of a picture. The first is also for lengths and for cached colours. -/
structure Codes where
  green : Code
  red : Code
  blue : Code
  alpha : Code
  distance : Code

namespace Codes

/-- Codes where so many colours are cached. -/
def read (cached : Nat) : Reader Codes := do
  pure ⟨← Code.read (280 + cached), ← Code.read 256, ← Code.read 256, ← Code.read 256,
    ← Code.read 40⟩

end Codes

/-- Which codes are used where. -/
structure Coding where
  /-- Columns of the picture in blocks. -/
  across : Nat
  /-- A block has `2 ^ bits` pixels in each direction. -/
  bits : Nat
  choices : Array Nat
  groups : Array Codes

/-- The codes at a place. -/
def Coding.codesAt? (c : Coding) (x y : Nat) : Option Codes :=
  c.groups[c.choices.getD (y >>> c.bits * c.across + x >>> c.bits) 0]?

/-! ## Pixels -/

/-- The columns and rows that the shortest distance symbols go back. -/
def nearby : List (Int × Int) :=
  [(0, 1), (1, 0), (1, 1), (-1, 1), (0, 2), (2, 0), (1, 2), (-1, 2), (2, 1), (-2, 1), (2, 2),
    (-2, 2), (0, 3), (3, 0), (1, 3), (-1, 3), (3, 1), (-3, 1), (2, 3), (-2, 3), (3, 2), (-3, 2),
    (0, 4), (4, 0), (1, 4), (-1, 4), (4, 1), (-4, 1), (3, 3), (-3, 3), (2, 4), (-2, 4), (4, 2),
    (-4, 2), (0, 5), (3, 4), (-3, 4), (4, 3), (-4, 3), (5, 0), (1, 5), (-1, 5), (5, 1), (-5, 1),
    (2, 5), (-2, 5), (5, 2), (-5, 2), (4, 4), (-4, 4), (3, 5), (-3, 5), (5, 3), (-5, 3), (0, 6),
    (6, 0), (1, 6), (-1, 6), (6, 1), (-6, 1), (2, 6), (-2, 6), (6, 2), (-6, 2), (4, 5), (-4, 5),
    (5, 4), (-5, 4), (3, 6), (-3, 6), (6, 3), (-6, 3), (0, 7), (7, 0), (1, 7), (-1, 7), (5, 5),
    (-5, 5), (7, 1), (-7, 1), (4, 6), (-4, 6), (6, 4), (-6, 4), (2, 7), (-2, 7), (7, 2), (-7, 2),
    (3, 7), (-3, 7), (7, 3), (-7, 3), (5, 6), (-5, 6), (6, 5), (-6, 5), (8, 0), (4, 7), (-4, 7),
    (7, 4), (-7, 4), (8, 1), (8, 2), (6, 6), (-6, 6), (8, 3), (5, 7), (-5, 7), (7, 5), (-7, 5),
    (8, 4), (6, 7), (-6, 7), (7, 6), (-7, 6), (8, 5), (7, 7), (-7, 7), (8, 6), (8, 7)]

/-- How many pixels back a distance leads in rows of a width. -/
def pixelsBack (width distance : Nat) : Nat :=
  match nearby[distance - 1]? with
  | some (dx, dy) => max 1 (dx + dy * width).toNat
  | none => distance - 120

/-- Pixels repeated from some distance back. -/
def repeatBack (distance : Nat) : Nat → Array Rgba → Array Rgba
  | 0, pixels => pixels
  | n + 1, pixels =>
    repeatBack distance n (pixels.push (pixels.getD (pixels.size - distance) .transparent))

/-- What comes next: pixels, and the cache after them. -/
def readNext (width left : Nat) (codes : Codes) (cache : Option Cache) (pixels : Array Rgba) :
    Reader (Array Rgba × Option Cache) := do
  let symbol ← codes.green.symbol
  if symbol < 256 then
    let red ← codes.red.symbol
    let blue ← codes.blue.symbol
    let alpha ← codes.alpha.symbol
    let color := ⟨red.toUInt8, symbol.toUInt8, blue.toUInt8, alpha.toUInt8⟩
    pure (pixels.push color, cache.map (·.add color))
  else if symbol < 280 then
    let length ← extended (symbol - 256)
    let distance := pixelsBack width (← extended (← codes.distance.symbol))
    if pixels.size < distance || left < length then failure
    else
      let more := repeatBack distance length pixels
      let added := more.extract pixels.size more.size
      pure (more, cache.map fun c => added.foldl Cache.add c)
  else
    match cache with
    | none => failure
    | some c =>
      match c.colors[symbol - 280]? with
      | none => failure
      | some color => pure (pixels.push color, cache)

/-- The pixels of a picture. Every step adds one at least, so their number is fuel enough. -/
def readPixels (width wanted : Nat) (coding : Coding) : Nat → Option Cache → Array Rgba →
    Reader (Array Rgba)
  | 0, _, pixels => pure pixels
  | fuel + 1, cache, pixels =>
    if wanted ≤ pixels.size then pure pixels
    else
      match coding.codesAt? (pixels.size % width) (pixels.size / width) with
      | none => failure
      | some codes => do
        let (pixels, cache) ← readNext width (wanted - pixels.size) codes cache pixels
        readPixels width wanted coding fuel cache pixels

/-- Colours that a cache has room for. -/
def cached (cache : Option Cache) : Nat := cache.elim 0 fun c => 1 <<< c.bits

/-- A picture with the same codes everywhere. -/
def readPlain (width height : Nat) : Reader Raster := do
  let cache ← Cache.read
  let coding := ⟨1, 16, #[], #[← Codes.read (cached cache)]⟩
  let wanted := width * height
  pure ⟨width, height, ← readPixels width wanted coding wanted cache #[]⟩

/-- A picture that may have several codes. Another picture tells which are used in a block. -/
def readRaster (width height : Nat) : Reader Raster := do
  let cache ← Cache.read
  let (size, chosen) ← if ← flag then do
      let size := (← bits 3) + 2
      let chosen ← readPlain (blocks width size) (blocks height size)
      pure (size, chosen.pixels.map fun c => c.r.toNat * 256 + c.g.toNat)
    else pure (16, #[])
  let count := chosen.foldl (fun n choice => max n (choice + 1)) 1
  let groups ← (List.range count).mapM fun _ => Codes.read (cached cache)
  let coding := ⟨blocks width size, size, chosen, groups.toArray⟩
  let wanted := width * height
  pure ⟨width, height, ← readPixels width wanted coding wanted cache #[]⟩

end RegionCapture.Picture.Webp
