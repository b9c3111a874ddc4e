import RegionCapture.Picture.Webp.Pixels
/-!
# Changes of pixels

What was done to the pixels of a picture before they were written, and how it is undone.
-/

namespace RegionCapture.Picture.Webp

/-- Two colours part by part. -/
def combine (f : UInt8 → UInt8 → UInt8) (c c' : Rgba) : Rgba :=
  ⟨f c.r c'.r, f c.g c'.g, f c.b c'.b, f c.a c'.a⟩

/-- The sum of two colours, without what does not fit. -/
def added (c c' : Rgba) : Rgba := combine (· + ·) c c'

/-- A change of a picture. -/
inductive Transform where
  /-- Pixels are differences from what is expected from the pixels before. A picture tells how that
  is done in a block of `2 ^ bits` pixels in each direction. -/
  | predict (bits : Nat) (modes : Raster)
  /-- Red and blue depend on the other parts, as a picture tells. -/
  | correlate (bits : Nat) (weights : Raster)
  /-- Green is taken from red and blue. -/
  | subtractGreen
  /-- Pixels are places in a table of colours, some in one pixel if the table is short. -/
  | index (width : Nat) (table : Array Rgba)

namespace Transform

/-! ## Reading -/

/-- Places in a table of a length that share a pixel are `2 ^ n`. -/
def packing (length : Nat) : Nat :=
  if length ≤ 2 then 3 else if length ≤ 4 then 2 else if length ≤ 16 then 1 else 0

/-- The kind of a change. -/
def kind : Transform → Nat
  | predict _ _ => 0
  | correlate _ _ => 1
  | subtractGreen => 2
  | index _ _ => 3

/-- A change of a kind, for a picture of some size, and the width that is left after it. -/
def read (width height : Nat) : (kind : Nat) → Reader (Transform × Nat)
  | 0 => do
    let size := (← bits 3) + 2
    pure (predict size (← readPlain (blocks width size) (blocks height size)), width)
  | 1 => do
    let size := (← bits 3) + 2
    pure (correlate size (← readPlain (blocks width size) (blocks height size)), width)
  | 2 => pure (subtractGreen, width)
  | _ => do
    let length := (← bits 8) + 1
    let differences := (← readPlain length 1).pixels
    let table := differences.foldl (fun table c =>
      table.push (added c (table.back?.getD .transparent))) #[]
    pure (index width table, blocks width (packing length))

/-- All changes, the last first, and the width that is left after them. No kind occurs twice. -/
def readAll (height : Nat) : (left width : Nat) → List Transform → Reader (List Transform × Nat)
  | 0, _, _ => failure
  | left + 1, width, done => do
    if ← flag then
      let kind ← bits 2
      if done.any (·.kind = kind) then failure
      else
        let (t, width) ← read width height kind
        readAll height left width (t :: done)
    else pure (done, width)

/-! ## Undoing -/

/-- The mean of two colours. -/
def mean (c c' : Rgba) : Rgba := combine (fun v v' => ((v.toNat + v'.toNat) / 2).toUInt8) c c'

/-- The difference of two colours over all parts. -/
def distance (c c' : Rgba) : Nat :=
  (List.zipWith (fun v v' => (v.toNat - v'.toNat) + (v'.toNat - v.toNat)) c.bytes c'.bytes).foldl
    (· + ·) 0

/-- A number inside eight bits. -/
def clamp (n : Int) : UInt8 := (min 255 n.toNat).toUInt8

/-- The colour that is as far from one as two others are from each other. -/
def gradient (l t tl : Rgba) : Rgba :=
  let part (f : Rgba → UInt8) := clamp ((f l).toNat + (f t).toNat - (f tl).toNat)
  ⟨part Rgba.r, part Rgba.g, part Rgba.b, part Rgba.a⟩

/-- A colour and half of what it is away from another. -/
def halfAway (c c' : Rgba) : Rgba :=
  combine (fun v v' => clamp (v.toNat + ((v.toNat : Int) - v'.toNat).tdiv 2)) c c'

/-- What is expected after the colours to the left, above, and above to the right and left. -/
def expected (mode : Nat) (l t tr tl : Rgba) : Rgba :=
  match mode with
  | 0 => ⟨0, 0, 0, 255⟩
  | 1 => l
  | 2 => t
  | 3 => tr
  | 4 => tl
  | 5 => mean (mean l tr) t
  | 6 => mean l tl
  | 7 => mean l t
  | 8 => mean tl t
  | 9 => mean t tr
  | 10 => mean (mean l tl) (mean t tr)
  | 11 => if distance t tl < distance l tl then l else t
  | 12 => gradient l t tl
  | 13 => halfAway (mean l t) tl
  | _ => .transparent

/-- Pixels from what they differ by. The first row goes by what is to the left, and the first column
by what is above. -/
def unpredict (size : Nat) (modes : Raster) (r : Raster) : Raster :=
  let pixels := r.pixels.foldl (fun done c =>
    let i := done.size
    let before (k : Nat) := done.getD (i - k) .transparent
    let x := i % r.width
    let y := i / r.width
    let base :=
      if i = 0 then ⟨0, 0, 0, 255⟩
      else if y = 0 then before 1
      else if x = 0 then before r.width
      else
        let mode := (modes.pixel (y >>> size * modes.width + x >>> size)).g.toNat
        expected mode (before 1) (before r.width) (before (r.width - 1)) (before (r.width + 1))
    done.push (added c base)) #[]
  { r with pixels }

/-- What a part adds to another, with its weight in thirty-seconds. Both have a sign. -/
def share (weight part : UInt8) : UInt8 :=
  UInt8.ofInt (weight.toInt8.toInt * part.toInt8.toInt / 32)

/-- Pixels whose red and blue get back what depends on the other parts. -/
def uncorrelate (size : Nat) (weights : Raster) (r : Raster) : Raster :=
  { r with
    pixels := r.pixels.mapIdx fun i c =>
      let w := weights.pixel ((i / r.width) >>> size * weights.width + (i % r.width) >>> size)
      let red := c.r + share w.b c.g
      ⟨red, c.g, c.b + share w.g c.g + share w.r red, c.a⟩ }

/-- Pixels whose red and blue get back their green. -/
def addGreen (r : Raster) : Raster :=
  { r with pixels := r.pixels.map fun c => ⟨c.r + c.g, c.g, c.b + c.g, c.a⟩ }

/-- Pixels from their places in a table. -/
def lookUp (width : Nat) (table : Array Rgba) (r : Raster) : Raster :=
  let shared := packing table.size
  let bits := 8 >>> shared
  let pixels := (List.range (width * r.height)).map fun i =>
    let x := i % width
    let c := r.pixel (i / width * r.width + x >>> shared)
    table.getD (c.g.toNat >>> (x % 1 <<< shared * bits) % 1 <<< bits) .transparent
  ⟨width, r.height, pixels.toArray⟩

/-- A picture before a change. -/
def undo : Transform → Raster → Raster
  | predict size modes => unpredict size modes
  | correlate size weights => uncorrelate size weights
  | subtractGreen => addGreen
  | index width table => lookUp width table

end Transform

end RegionCapture.Picture.Webp
