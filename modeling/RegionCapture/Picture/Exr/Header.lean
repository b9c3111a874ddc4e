import RegionCapture.Bytes
/-!
# Headers of deep-range pictures

A header is a list of named attributes. Only a few of them tell where the pixels are and what they
consist of.
-/

namespace RegionCapture.Picture.Exr

/-- The bytes of a name. -/
def name (s : String) : List UInt8 := s.toUTF8.data.toList

/-- A text that ends at a zero, and where the next thing begins. It is neither empty nor longer than
it may be. -/
def text? (bytes : ByteArray) (pos longest : Nat) : Option (List UInt8 × Nat) :=
  let taken := (bytes.extract pos (pos + longest + 1)).data.toList
  let text := taken.takeWhile (· ≠ 0)
  if text.isEmpty || text.length = taken.length then none else some (text, pos + text.length + 1)

/-- A number with a sign, in four bytes. -/
def signed? (bytes : ByteArray) (pos : Nat) : Option Int :=
  (Bytes.littleAt? bytes pos 4).map fun n => if 0x80000000 ≤ n then n - 0x100000000 else n

/-! ## Attributes -/

/-- A named value of a header. -/
structure Attribute where
  name : List UInt8
  kind : List UInt8
  content : ByteArray

namespace Attribute

/-- The attributes up to an empty one, and where the header ends. Each takes six bytes at least. -/
def readAll? (bytes : ByteArray) (longest : Nat) : (fuel pos : Nat) →
    Option (List Attribute × Nat)
  | 0, _ => none
  | fuel + 1, pos =>
    match Bytes.littleAt? bytes pos 1 with
    | none => none
    | some 0 => some ([], pos + 1)
    | some _ => do
      let (name, pos) ← text? bytes pos longest
      let (kind, pos) ← text? bytes pos longest
      let size ← Bytes.littleAt? bytes pos 4
      if 0x80000000 ≤ size || bytes.size < pos + 4 + size then none
      else
        let content := bytes.extract (pos + 4) (pos + 4 + size)
        let (rest, last) ← readAll? bytes longest fuel (pos + 4 + size)
        pure (⟨name, kind, content⟩ :: rest, last)

end Attribute

/-- The last value of an attribute of some kind that can be read. -/
def valueOf? {α : Type} (attributes : List Attribute) (named kind : String)
    (read? : ByteArray → Option α) : Option α :=
  (attributes.filterMap fun a =>
    if a.name = name named && a.kind = name kind then read? a.content else none).getLast?

/-! ## Values -/

/-- A rectangle of pixels. -/
structure Window where
  x : Int
  y : Int
  width : Nat
  height : Nat

namespace Window

/-- The rectangle between two of its pixels. -/
def read? (content : ByteArray) : Option Window := do
  let x ← signed? content 0
  let y ← signed? content 4
  let x' ← signed? content 8
  let y' ← signed? content 12
  pure ⟨min x x', min y y', (max x x' - min x x' + 1).toNat, (max y y' - min y y' + 1).toNat⟩

/-- A pixel by its place in a rectangle is in another at the given place. -/
def place? (w : Window) (x y : Int) : Option (Nat × Nat) :=
  if w.x ≤ x && w.y ≤ y && x < w.x + w.width && y < w.y + w.height then
    some ((x - w.x).toNat, (y - w.y).toNat)
  else none

end Window

/-- How the samples of a channel are stored. -/
inductive SampleKind where
  | whole
  | half
  | single
  deriving DecidableEq, Repr

namespace SampleKind

/-- Bytes of a sample. -/
def size : SampleKind → Nat
  | half => 2
  | whole | single => 4

/-- The kind with a number. -/
def ofNat? : Nat → Option SampleKind
  | 0 => some whole
  | 1 => some half
  | 2 => some single
  | _ => none

/-- A half-precision number in single precision. -/
def widened (n : Nat) : Float32 :=
  let sign := n >>> 15 % 2
  let exponent := n >>> 10 % 32
  let mantissa := n % 1024
  if exponent = 0 then
    (if sign = 1 then -1 else 1) * (mantissa.toFloat32 / 16777216)
  else
    let exponent := if exponent = 31 then 255 else exponent + 112
    Float32.ofBits (sign <<< 31 + exponent <<< 23 + mantissa <<< 13).toUInt32

/-- The value of a sample. -/
def value (k : SampleKind) (n : Nat) : Float32 :=
  match k with
  | whole => n.toFloat32
  | half => widened n
  | single => Float32.ofBits n.toUInt32

end SampleKind

/-- A channel of a picture. -/
structure Channel where
  name : List UInt8
  kind : SampleKind
  /-- There is a sample for every pixel. -/
  isFull : Bool

namespace Channel

/-- The longest name. -/
def longest : Nat := 256

/-- The channels up to an empty one. Each takes eighteen bytes at least. -/
def readAll? (content : ByteArray) : (fuel pos : Nat) → Option (List Channel)
  | 0, _ => none
  | fuel + 1, pos =>
    match Bytes.littleAt? content pos 1 with
    | none => none
    | some 0 => some []
    | some _ => do
      let (name, pos) ← text? content pos longest
      let kind ← SampleKind.ofNat? (← Bytes.littleAt? content pos 4)
      let isLinear ← Bytes.littleAt? content (pos + 4) 1
      let dx ← Bytes.littleAt? content (pos + 8) 4
      let dy ← Bytes.littleAt? content (pos + 12) 4
      if 1 < isLinear then none
      else (readAll? content fuel (pos + 16)).map (⟨name, kind, dx = 1 && dy = 1⟩ :: ·)

/-- The channels stand in the order of their names. -/
def isSorted (channels : List Channel) : Bool :=
  (channels.zip channels.tail).all fun (c, c') => !(c'.name < c.name)

end Channel

/-! ## Header -/

/-- How a block is packed. -/
inductive Packing where
  | none
  | runs
  | deflate
  /-- In a way that is not unpacked here. -/
  | other
  deriving DecidableEq, Repr

namespace Packing

/-- The packing with a number, and the rows of a block. -/
def ofNat? : Nat → Option (Packing × Nat)
  | 0 => some (none, 1)
  | 1 => some (runs, 1)
  | 2 => some (deflate, 1)
  | 3 => some (deflate, 16)
  | 4 | 6 | 7 | 8 => some (other, 32)
  | 5 => some (other, 16)
  | 9 => some (other, 256)
  | _ => Option.none

end Packing

/-- What a header says. -/
structure Header where
  channels : List Channel
  packing : Packing
  /-- Rows of a block. -/
  rows : Nat
  /-- Where there are pixels. -/
  stored : Window
  /-- What is shown. -/
  shown : Window
  /-- Where the positions of the blocks begin. -/
  start : Nat

namespace Header

/-- The header of a file with one picture in rows. Only long names may be asked for beside that. -/
def read? (bytes : ByteArray) : Option Header := do
  let magic ← Bytes.littleAt? bytes 0 4
  let version ← Bytes.littleAt? bytes 4 4
  let longest := if version.testBit 10 then 256 else 32
  if magic ≠ 20000630 || version % 256 ∉ [1, 2] || version / 256 ∉ [0, 4] then
    none
  else
    let (attributes, start) ← Attribute.readAll? bytes longest bytes.size 8
    let channels ← valueOf? attributes "channels" "chlist" fun c => Channel.readAll? c c.size 0
    let (packing, rows) ← valueOf? attributes "compression" "compression" fun c => do
      Packing.ofNat? (← Bytes.littleAt? c 0 1)
    let stored ← valueOf? attributes "dataWindow" "box2i" Window.read?
    let shown ← valueOf? attributes "displayWindow" "box2i" Window.read?
    if channels.isEmpty || !channels.all (·.isFull) || !Channel.isSorted channels then none
    else pure ⟨channels, packing, rows, stored, shown, start⟩

/-- Bytes of a row of some channels. -/
def rowOf (h : Header) (channels : List Channel) : Nat :=
  h.stored.width * channels.foldl (fun sum c => sum + c.kind.size) 0

/-- Bytes of a row of pixels. -/
def rowBytes (h : Header) : Nat := h.rowOf h.channels

/-- The number of blocks. -/
def blocks (h : Header) : Nat := (h.stored.height + h.rows - 1) / h.rows

/-- Where the samples of a channel begin in a row, and how they are stored. -/
def channel? (h : Header) (s : String) : Option (Nat × SampleKind) :=
  let before := h.channels.takeWhile (·.name ≠ name s)
  (h.channels[before.length]?).map fun c => (h.rowOf before, c.kind)

end Header

end RegionCapture.Picture.Exr
