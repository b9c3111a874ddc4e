import RegionCapture.Fault
import RegionCapture.Matrix
/-!
# Pictures

Pictures of straight-alpha pixels, rows from top to bottom. A canvas is what is stored: its sides, and
as many pixels as there happen to be. A frame is a canvas with all the pixels that its sides ask for.
`Canvas.pixel?` is the view that everything else about a picture is stated with.
-/

namespace RegionCapture

/-- A colour, eight bits for each channel. -/
structure Rgba where
  r : UInt8
  g : UInt8
  b : UInt8
  a : UInt8
  deriving DecidableEq, Repr

/-- No colour at all. -/
def Rgba.transparent : Rgba := ⟨0, 0, 0, 0⟩

/-- The channels in order. -/
def Rgba.bytes (c : Rgba) : List UInt8 := [c.r, c.g, c.b, c.a]

/-- A picture as it is stored, row by row. -/
structure Canvas where
  width : Nat
  height : Nat
  pixels : Array Rgba

namespace Canvas

/-- Width and height. -/
def size (c : Canvas) : Size := ⟨c.width, c.height⟩

/-- The pixel at column `x` and row `y`, counted from the top left corner. -/
def pixel? (c : Canvas) (x y : Nat) : Option Rgba :=
  if x < c.width && y < c.height then c.pixels[y * c.width + x]? else none

/-- The channels of all pixels, row by row. -/
def bytes (c : Canvas) : List UInt8 := c.pixels.toList.flatMap Rgba.bytes

/-- The pixels of a row. -/
def row (c : Canvas) (y : Nat) : List Rgba :=
  (List.range c.width).filterMap fun x => c.pixel? x y

/-- The rows from the top down, as far as there are pixels. -/
def rows (c : Canvas) : List (List Rgba) :=
  (List.range ((c.pixels.size + c.width - 1) / c.width)).map c.row

/-- A canvas of one colour. -/
def solid (size : Size) (color : Rgba) : Canvas :=
  ⟨size.width, size.height, Array.replicate (size.bytes / 4) color⟩

/-- The canvas with the given channels, pixel by pixel; there have to be four for each pixel. -/
def ofBytes (size : Size) (bytes : ByteArray) : Except Fault Canvas :=
  if bytes.size = size.bytes then
    .ok ⟨size.width, size.height, Array.ofFn fun i : Fin (bytes.size / 4) =>
      ⟨bytes.get! (4 * i), bytes.get! (4 * i + 1), bytes.get! (4 * i + 2), bytes.get! (4 * i + 3)⟩⟩
  else .error (.byteCount bytes.size size)

/-- Every pixel in one colour. -/
def fill (c : Canvas) (color : Rgba) : Canvas :=
  { c with pixels := Array.replicate c.pixels.size color }

/-- Every pixel of a row that is there in full changed, knowing its place. -/
def mapRows (c : Canvas) (change : Nat → Nat → Rgba → Rgba) : Canvas :=
  { c with
    pixels := c.pixels.mapIdx fun i color =>
      if i / c.width < c.pixels.size / c.width then change (i % c.width) (i / c.width) color
      else color }

/-- There are as many pixels as the sides say. -/
def Whole (c : Canvas) : Prop := c.pixels.size = c.width * c.height
  deriving Decidable

end Canvas

/-- A picture: as many pixels as its sides say. -/
structure Frame extends Canvas where
  size_pixels : toCanvas.Whole

/-- The canvas as a picture, if it is one. -/
def Canvas.toFrame? (c : Canvas) : Option Frame := if h : c.Whole then some ⟨c, h⟩ else none

namespace Frame

/-- The picture whose pixel at column `x` and row `y` is `color x y`. -/
def ofFn (width height : Nat) (color : Nat → Nat → Rgba) : Frame where
  width := width
  height := height
  pixels := Array.ofFn fun i : Fin (width * height) => color (i.val % width) (i.val / width)
  size_pixels := Array.size_ofFn

/-- Every pixel changed, knowing its place. -/
def mapPixels (f : Frame) (change : Nat → Nat → Rgba → Rgba) : Frame where
  width := f.width
  height := f.height
  pixels := f.pixels.mapIdx fun i color => change (i % f.width) (i / f.width) color
  size_pixels := Array.size_mapIdx.trans f.size_pixels

end Frame

/-! ## The view of each operation -/

namespace Canvas

theorem index_lt {x y width height : Nat} (hx : x < width) (hy : y < height) :
    y * width + x < width * height := by
  calc y * width + x < y * width + width := by omega
    _ = (y + 1) * width := by rw [Nat.add_mul, Nat.one_mul]
    _ ≤ height * width := Nat.mul_le_mul_right _ hy
    _ = width * height := Nat.mul_comm _ _

theorem index_mod {x width : Nat} (y : Nat) (hx : x < width) : (y * width + x) % width = x := by
  rw [Nat.add_comm, Nat.add_mul_mod_self_right, Nat.mod_eq_of_lt hx]

theorem index_div {x width : Nat} (y : Nat) (hx : x < width) : (y * width + x) / width = y := by
  rw [Nat.add_comm, Nat.add_mul_div_right _ _ (by omega), Nat.div_eq_of_lt hx, Nat.zero_add]

theorem pixel?_eq_none {c : Canvas} {x y : Nat} (h : ¬ (x < c.width ∧ y < c.height)) :
    c.pixel? x y = none := by
  simp only [pixel?, Bool.and_eq_true, decide_eq_true_eq, h, if_false]

theorem pixel?_eq_getElem? {c : Canvas} {x y : Nat} (hx : x < c.width) (hy : y < c.height) :
    c.pixel? x y = c.pixels[y * c.width + x]? := by
  simp only [pixel?, hx, hy, decide_true, Bool.and_self, if_true]

variable {c : Canvas}

theorem Whole.index_lt (h : c.Whole) {x y : Nat} (hx : x < c.width) (hy : y < c.height) :
    y * c.width + x < c.pixels.size := by
  rw [h]
  exact Canvas.index_lt hx hy

/-- A whole canvas has a pixel exactly inside its sides. -/
theorem Whole.isSome_pixel? (h : c.Whole) {x y : Nat} :
    (c.pixel? x y).isSome = true ↔ x < c.width ∧ y < c.height := by
  by_cases hp : x < c.width ∧ y < c.height
  · simp [pixel?_eq_getElem? hp.1 hp.2, hp, h.index_lt hp.1 hp.2]
  · simp [pixel?_eq_none hp, hp]

theorem Whole.pixel?_fill (h : c.Whole) {x y : Nat} (color : Rgba) (hx : x < c.width)
    (hy : y < c.height) : (c.fill color).pixel? x y = some color := by
  rw [pixel?_eq_getElem? (c := c.fill color) hx hy]
  simp [fill, h.index_lt hx hy]

/-- Of a whole canvas, every row is there in full. -/
theorem Whole.pixel?_mapRows (h : c.Whole) (change : Nat → Nat → Rgba → Rgba) (x y : Nat) :
    (c.mapRows change).pixel? x y = (c.pixel? x y).map (change x y) := by
  by_cases hp : x < c.width ∧ y < c.height
  · have hrow : c.pixels.size / c.width = c.height := by
      rw [h, Nat.mul_div_cancel_left _ (by omega)]
    rw [pixel?_eq_getElem? (c := c.mapRows change) hp.1 hp.2, pixel?_eq_getElem? hp.1 hp.2]
    simp [mapRows, index_mod y hp.1, index_div y hp.1, hrow, hp.2]
  · rw [pixel?_eq_none hp, pixel?_eq_none (c := c.mapRows change) hp]
    rfl

theorem size_fill (c : Canvas) (color : Rgba) : (c.fill color).size = c.size := rfl

@[simp] theorem size_pixels_fill (c : Canvas) (color : Rgba) :
    (c.fill color).pixels.size = c.pixels.size := Array.size_replicate

@[simp] theorem size_pixels_mapRows (c : Canvas) (change : Nat → Nat → Rgba → Rgba) :
    (c.mapRows change).pixels.size = c.pixels.size := Array.size_mapIdx

end Canvas

namespace Frame

theorem isSome_pixel? {f : Frame} {x y : Nat} :
    (f.pixel? x y).isSome = true ↔ x < f.width ∧ y < f.height := f.size_pixels.isSome_pixel?

theorem pixel?_ofFn {width height x y : Nat} (color : Nat → Nat → Rgba) (hx : x < width)
    (hy : y < height) : (ofFn width height color).pixel? x y = some (color x y) := by
  rw [Canvas.pixel?_eq_getElem? (c := (ofFn width height color).toCanvas) hx hy]
  simp [ofFn, Canvas.index_lt hx hy, Canvas.index_mod y hx, Canvas.index_div y hx]

end Frame

/-- A frame to be drawn, with the matrix that takes normalized coordinates to the coordinates that
the frame is sampled at. -/
structure SourceFrame (L : Type) where
  texture : Frame
  matrix : Mat4 L

/-- A frame stored from the top down, to be shown upright. -/
def SourceFrame.upright {L : Type} [Scalar L] (texture : Frame) : SourceFrame L :=
  ⟨texture, Affine.homogeneous Affine.mirrorY⟩

end RegionCapture
