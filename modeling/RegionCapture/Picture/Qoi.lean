import RegionCapture.Bytes
import RegionCapture.Picture.Sample
/-!
# Quite OK images

Each pixel is given by itself, by its difference from the one before, or by the place of one that
was seen lately; a pixel that comes again and again is counted.
-/

namespace RegionCapture.Picture.Qoi

/-- What every file begins with. -/
def signature : List UInt8 := "qoif".toUTF8.data.toList

/-- What follows the pixels. -/
def ending : List UInt8 := [0, 0, 0, 0, 0, 0, 0, 1]

/-- The most pixels of a picture. -/
def maxPixels : Nat := 400000000

/-- The pixels read so far. -/
structure Progress where
  pixels : Array Rgba
  last : Rgba
  /-- Pixels seen lately, each at the place that its channels give it. -/
  seen : Array Rgba

/-- The place of a pixel among those seen lately. -/
def place (c : Rgba) : Nat :=
  (3 * c.r.toNat + 5 * c.g.toNat + 7 * c.b.toNat + 11 * c.a.toNat) % 64

namespace Progress

/-- No pixel yet. -/
def start (hasAlpha : Bool) : Progress :=
  ⟨#[], ⟨0, 0, 0, 255⟩, Array.replicate 64 ⟨0, 0, 0, if hasAlpha then 0 else 255⟩⟩

/-- One pixel more, to be remembered. -/
def push (p : Progress) (c : Rgba) : Progress :=
  ⟨p.pixels.push c, c, p.seen.setIfInBounds (place c) c⟩

/-- A pixel that was seen lately. -/
def seenAgain (p : Progress) (i : Nat) : Progress :=
  let c := p.seen.getD i p.last
  { p with pixels := p.pixels.push c, last := c }

/-- The last pixel some times more. -/
def again (p : Progress) (count : Nat) : Progress :=
  { p with pixels := p.pixels ++ Array.replicate count p.last }

/-- A pixel that differs a little from the last one. -/
def shift (p : Progress) (dr dg db : UInt8) : Progress :=
  p.push ⟨p.last.r + dr, p.last.g + dg, p.last.b + db, p.last.a⟩

/-- A pixel with differences from -2 to 1, two bits for each. -/
def shiftLittle (p : Progress) (bits : UInt8) : Progress :=
  p.shift (bits / 16 % 4 - 2) (bits / 4 % 4 - 2) (bits % 4 - 2)

/-- A pixel with a difference of its green from -32 to 31, and red and blue near that. -/
def shiftMore (p : Progress) (green others : UInt8) : Progress :=
  let dg := green % 64 - 32
  p.shift (dg - 8 + others / 16) dg (dg - 8 + others % 16)

end Progress

/-- The pixels up to a count, and what follows them. -/
def read? (hasAlpha : Bool) (count : Nat) (p : Progress) (bytes : List UInt8) :
    Option (Progress × List UInt8) :=
  if count ≤ p.pixels.size then some (p, bytes)
  else match bytes with
    | 0xFE :: r :: g :: b :: rest => read? hasAlpha count (p.push ⟨r, g, b, p.last.a⟩) rest
    | 0xFF :: r :: g :: b :: a :: rest =>
      if hasAlpha then read? hasAlpha count (p.push ⟨r, g, b, a⟩) rest else none
    | first :: rest =>
      if first < 0x40 then read? hasAlpha count (p.seenAgain first.toNat) rest
      else if first < 0x80 then read? hasAlpha count (p.shiftLittle first) rest
      else if first < 0xC0 then
        match rest with
        | second :: rest => read? hasAlpha count (p.shiftMore first second) rest
        | [] => none
      else if first < 0xFE then
        read? hasAlpha count (p.again (min (first.toNat % 64 + 1) (count - p.pixels.size))) rest
      else none
    | [] => none
termination_by bytes.length
decreasing_by all_goals (simp only [List.length_cons]; omega)

/-- The picture in a file. -/
def decode? (bytes : ByteArray) : Option Frame := do
  let name ← Bytes.part? bytes 0 4
  let width ← Bytes.bigAt? bytes 4 4
  let height ← Bytes.bigAt? bytes 8 4
  let channels ← Bytes.littleAt? bytes 12 1
  let space ← Bytes.littleAt? bytes 13 1
  let count := width * height
  if name ≠ signature || channels < 3 || 4 < channels || 1 < space || count = 0
      || maxPixels < count then
    none
  else
    let hasAlpha := channels = 4
    let (p, rest) ← read? hasAlpha count (Progress.start hasAlpha) (bytes.data.toList.drop 14)
    if rest.take 8 ≠ ending then none
    else pure (Frame.ofFn width height fun x y => p.pixels.getD (y * width + x) .transparent)

end RegionCapture.Picture.Qoi
