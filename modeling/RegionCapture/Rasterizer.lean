import RegionCapture.Renderer
/-!
# The rasterizer

A renderer in plain arithmetic. Drawing replaces the pixels of the viewport and no others, each by
its fragment: the nearest pixel of the input, or transparent black where the texture coordinates
leave the unit square. Nothing is blended. A command that fails leaves everything as it is.
-/

namespace RegionCapture

/-- What drawing commands have set so far. -/
structure Rasterizer (L : Type) where
  target : Option Canvas
  /-- The programs made and not yet deleted. -/
  programs : List Nat
  nextProgram : UInt32
  current : Option Nat
  input : Option Frame
  texMatrix : Mat4 L
  userMatrix : Mat4 L
  viewport : Option Viewport

namespace Rasterizer

variable {L : Type}

/-- Nothing is set, and the matrices are the identity. -/
def new [Scalar L] : Rasterizer L where
  target := none
  programs := []
  nextProgram := 1
  current := none
  input := none
  texMatrix := Mat4.identity
  userMatrix := Mat4.identity
  viewport := none

section Sampling

variable [Coordinate L]

/-- The pixel at normalized coordinates, `v` counting from the first row. -/
def sample (texture : Frame) (u v : L) : Rgba :=
  let column := min (Coordinate.cell (u * Scalar.ofNat texture.width)) (texture.width - 1)
  let row := min (Coordinate.cell (v * Scalar.ofNat texture.height)) (texture.height - 1)
  (texture.pixel? column row).getD .transparent

/-- The middle of the cell `i` of `n` cells that make up the unit interval. -/
def cellCenter (i n : Nat) : L := (Scalar.ofNat i + Scalar.half) / Scalar.ofNat n

/-- The texture coordinates in the middle of column `x` and row `y` of a viewport, counted from its
bottom left corner. -/
def texCoords (m : Mat4 L) (viewport : Size) (x y : Nat) : L × L :=
  m.applyPoint (cellCenter x viewport.width) (cellCenter y viewport.height)

/-- The colour at column `x` and row `y` of a viewport, counted from its bottom left corner. -/
def fragment (m : Mat4 L) (texture : Frame) (viewport : Size) (x y : Nat) : Rgba :=
  let (u, v) := texCoords m viewport x y
  if Coordinate.isUnit u && Coordinate.isUnit v then sample texture u v else .transparent

/-- The target after a quad is drawn. Rows of the viewport are counted from the bottom. -/
def drawn (m : Mat4 L) (texture : Frame) (v : Viewport) (target : Canvas) : Canvas :=
  target.mapRows fun x row color =>
    let y := target.height - 1 - row
    if v.contains x y then fragment m texture v.size (x - v.x) (y - v.y) else color

/-- Inside the viewport a pixel is the fragment of its place there, outside it stays. -/
theorem pixel?_drawn (m : Mat4 L) (texture : Frame) (v : Viewport) {target : Canvas}
    (h : target.Whole) (x row : Nat) :
    (drawn m texture v target).pixel? x row = (target.pixel? x row).map fun color =>
      if v.contains x (target.height - 1 - row) then
        fragment m texture v.size (x - v.x) (target.height - 1 - row - v.y)
      else color :=
  h.pixel?_mapRows _ x row

/-- Draw the quad. What is missing is reported in this order: program, input, viewport, target. -/
def draw : Action (Rasterizer L) Unit := fun s =>
  match s.current, s.input, s.viewport, s.target with
  | none, _, _, _ => (.error .drawWithoutProgram, s)
  | some _, none, _, _ => (.error .drawWithoutInput, s)
  | some _, some _, none, _ => (.error .drawWithoutViewport, s)
  | some _, some _, some _, none => (.error .drawWithoutTarget, s)
  | some _, some input, some viewport, some target =>
    (.ok (),
      { s with target := some (drawn (s.texMatrix.mul s.userMatrix) input viewport target) })

/-- Carry out a command. -/
def perform (c : Command L) : Action (Rasterizer L) Unit := fun s =>
  match c with
  | .ensureTarget size =>
    if size.isEmpty then (.error (.emptyTarget size), s)
    else if s.target.map Canvas.size = some size then (.ok (), s)
    else (.ok (), { s with target := some (Canvas.solid size .transparent) })
  | .clearTarget color =>
    match s.target with
    | none => (.error .clearWithoutTarget, s)
    | some target => (.ok (), { s with target := some (target.fill color) })
  | .useProgram id =>
    if s.programs.contains id then (.ok (), { s with current := some id })
    else (.error (.unknownProgram id), s)
  | .bindInput texture =>
    if texture.size.isEmpty then (.error .emptyTexture, s)
    else (.ok (), { s with input := some texture })
  | .setTexMatrix m => (.ok (), { s with texMatrix := m })
  | .setUserMatrix m => (.ok (), { s with userMatrix := m })
  | .setViewport v => (.ok (), { s with viewport := some v })
  | .drawQuad => draw s
  | .unbind => (.ok (), { s with input := none, current := none })

end Sampling

/-- Make a program, once its inputs are found. Ids count up, and in the end come round. -/
def createProgram (p : Program) : Action (Rasterizer L) Nat := fun s =>
  match p.resolve with
  | .ok _ =>
    let id := s.nextProgram.toNat
    (.ok id, { s with programs := id :: s.programs, nextProgram := s.nextProgram + 1 })
  | .error e => (.error e, s)

/-- Delete a program. If it is in use, none is any more. -/
def deleteProgram (id : Nat) (s : Rasterizer L) : Rasterizer L :=
  { s with
    programs := s.programs.filter (· ≠ id)
    current := if s.current = some id then none else s.current }

/-- What the target shows. -/
def readBack (s : Rasterizer L) : Except Fault Canvas :=
  match s.target with
  | none => .error .readWithoutTarget
  | some target => .ok target

/-- The rasterizer as a renderer. -/
def renderer [Coordinate L] : Renderer L (Rasterizer L) :=
  ⟨createProgram, deleteProgram, perform, readBack⟩

end Rasterizer

end RegionCapture
