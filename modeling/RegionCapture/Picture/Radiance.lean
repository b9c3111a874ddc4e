import RegionCapture.Decimal.Real
import RegionCapture.Picture.Sample
import RegionCapture.Text.Blank
import RegionCapture.Text.Numeral
/-!
# Radiance pictures

A header of text lines, then rows of colours that share an exponent. A row gives its pixels one
after the other, with counted repetitions, or packs each of the four bytes by itself.
-/

namespace RegionCapture.Picture.Radiance

/-- What every file begins with. -/
def signature : List UInt8 := "#?RADIANCE".toUTF8.data.toList

/-! ## Header -/

/-- The next line and what follows it, if anything is left. -/
def line? (bytes : List UInt8) : Option (List UInt8 × List UInt8) :=
  if bytes.isEmpty then none
  else some (bytes.takeWhile (· ≠ 10), (bytes.dropWhile (· ≠ 10)).drop 1)

theorem length_of_line? {bytes line rest : List UInt8} (h : line? bytes = some (line, rest)) :
    rest.length < bytes.length := by
  cases bytes with
  | nil => simp [line?] at h
  | cons b bs =>
    simp only [line?, List.isEmpty_cons, Bool.false_eq_true, if_false, Option.some.injEq,
      Prod.mk.injEq] at h
    have hl : ((b :: bs).dropWhile (· ≠ 10)).length ≤ (b :: bs).length :=
      (List.dropWhile_suffix _).length_le
    rw [← h.2, List.length_drop]
    simp only [List.length_cons] at hl ⊢
    omega

/-- The text of a line. What is no text is read as characters of one byte. -/
def lineText (line : List UInt8) : List Char :=
  match String.fromUTF8? line.toByteArray with
  | some s => s.toList
  | none => line.map fun b => Char.ofNat b.toNat

/-- The text is a number. -/
def isNumber (text : List Char) : Bool := (Decimal.real? text).isSome

/-- A line of the header can stand: it sets nothing that is known, or sets it to something that can
be read. A line without a name or a value sets nothing. -/
def isAllowed (line : List Char) : Bool :=
  let name := line.takeWhile (· ≠ '=')
  let value := (line.dropWhile (· ≠ '=')).drop 1
  if name = [] || value = [] then true
  else
    match String.ofList (Text.trim name) with
    | "FORMAT" => Text.trim value = "32-bit_rle_rgbe".toList
    | "EXPOSURE" | "PIXASPECT" => isNumber (Text.trim value)
    | "COLORCORR" =>
      let words := Text.words value
      words.length = 3 && words.all isNumber
    | _ => true

/-- What follows the empty line that ends the settings. -/
def afterSettings? (bytes : List UInt8) : Option (List UInt8) :=
  match _h : line? bytes with
  | none => none
  | some (line, rest) =>
    if line.isEmpty then some rest
    else if line.head? = some 35 || isAllowed (lineText line) then afterSettings? rest
    else none
termination_by bytes.length
decreasing_by exact length_of_line? (by assumption)

/-- Width and height. The only order of rows is from the top down, with columns from the left. -/
def sides? (line : List Char) : Option (Nat × Nat) :=
  match Text.words line with
  | [['-', 'Y'], height, ['+', 'X'], width] => do
    let height ← (Text.readNat Text.maxNat32 height).toOption
    let width ← (Text.readNat Text.maxNat32 width).toOption
    pure (width, height)
  | _ => none

/-! ## Rows -/

/-- A colour and the exponent of its three parts. -/
structure Pixel where
  r : UInt8
  g : UInt8
  b : UInt8
  exponent : UInt8

/-- The pixel does not stand for itself but for a repetition. -/
def Pixel.isCount (p : Pixel) : Bool := p.r = 1 && p.g = 1 && p.b = 1

/-- The pixels of a row after the first, some with their counts. Counts in a row are digits to the
base 256, the lowest first. -/
def plainRow? (left weight : Nat) (last : Pixel) :
    List UInt8 → Option (List Pixel × List UInt8)
  | r :: g :: b :: e :: rest =>
    let p : Pixel := ⟨r, g, b, e⟩
    if left = 0 then some ([], r :: g :: b :: e :: rest)
    else if p.isCount then
      let count := e.toNat * weight
      if left < count then none
      else (plainRow? (left - count) (256 * weight) last rest).map fun (row, rest) =>
        (List.replicate count last ++ row, rest)
    else (plainRow? (left - 1) 1 p rest).map fun (row, rest) => (p :: row, rest)
  | rest => if left = 0 then some ([], rest) else none

/-- One byte of each pixel of a row: after a count, bytes as they are or one to be repeated. -/
def packedPart? (left : Nat) (bytes : List UInt8) : Option (List UInt8 × List UInt8) :=
  if left = 0 then some ([], bytes)
  else match bytes with
    | [] => none
    | first :: rest =>
      let stored := if first ≤ 128 then first.toNat else 1
      let count := if first ≤ 128 then first.toNat else first.toNat - 128
      if left < count || rest.length < stored then none
      else
        let content := rest.take stored
        let content := if first ≤ 128 then content else (List.replicate count content).flatten
        (packedPart? (left - count) (rest.drop stored)).map fun (part, rest) =>
          (content ++ part, rest)
termination_by bytes.length

/-- A packed row: all reds, all greens, all blues, all exponents. -/
def packedRow? (width : Nat) (bytes : List UInt8) : Option (List Pixel × List UInt8) := do
  let (r, bytes) ← packedPart? width bytes
  let (g, bytes) ← packedPart? width bytes
  let (b, bytes) ← packedPart? width bytes
  let (e, bytes) ← packedPart? width bytes
  let pixels := (r.zip g).zip (b.zip e) |>.map fun ((r, g), b, e) => ⟨r, g, b, e⟩
  pure (pixels, bytes)

/-- A row. The first pixel tells how it is stored. -/
def row? (width : Nat) : List UInt8 → Option (List Pixel × List UInt8)
  | r :: g :: b :: e :: rest =>
    let p : Pixel := ⟨r, g, b, e⟩
    if r = 2 && g = 2 && b < 128 then packedRow? width rest
    else if p.isCount then none
    else (plainRow? (width - 1) 1 p rest).map fun (row, rest) => (p :: row, rest)
  | _ => none

/-- Some rows, one after the other. -/
def rows? (width : Nat) : Nat → List UInt8 → Option (List Pixel)
  | 0, _ => some []
  | count + 1, bytes =>
    match row? width bytes with
    | none => none
    | some (row, rest) => (rows? width count rest).map (row ++ ·)

/-! ## Colours -/

/-- A part of a colour in eight bits, to the nearest: full intensity is `2 ^ 136` before the
exponent, and what is brighter is cut. -/
def toByte (part exponent : UInt8) : UInt8 :=
  if exponent = 0 then 0
  else
    (min 255 (((2 * 255 * part.toNat) <<< exponent.toNat + 1 <<< 136) >>> 137)).toUInt8

/-- A pixel as it is shown. -/
def Pixel.color (p : Pixel) : Rgba :=
  ⟨toByte p.r p.exponent, toByte p.g p.exponent, toByte p.b p.exponent, 255⟩

/-- The picture in a file. -/
def decode? (bytes : ByteArray) : Option Frame := do
  let bytes := bytes.data.toList
  if bytes.take 10 ≠ signature then none
  else
    let (_, bytes) ← line? bytes
    let bytes ← afterSettings? bytes
    let (line, bytes) ← line? bytes
    let (width, height) ← sides? (lineText line)
    let pixels ← if width = 0 || height = 0 then pure [] else rows? width height bytes
    let pixels := pixels.toArray
    pure (Frame.ofFn width height fun x y =>
      (pixels[y * width + x]?).elim .transparent Pixel.color)

end RegionCapture.Picture.Radiance
