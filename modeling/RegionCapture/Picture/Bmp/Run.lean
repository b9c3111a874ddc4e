import RegionCapture.Picture.Sample
/-!
# Runs of pixels

Pixels given as instructions to a brush, which goes over the rows from the bottom up. It paints
runs of pixels, or pixels that are given one by one, and may leave some out.
-/

namespace RegionCapture.Picture.Bmp

/-- What the brush does next. -/
inductive Instruction where
  /-- Paints the same places of the table over and over. -/
  | run (places : List Nat)
  /-- Paints places that are given one by one. -/
  | stored (places : List Nat)
  | skip (columns rows : Nat)
  | endOfRow
  | endOfPicture
  deriving DecidableEq, Repr

namespace Instruction

/-- The places in a byte: two of four bits, or one. -/
def placesIn (depth : Nat) (byte : UInt8) : List Nat :=
  if depth = 4 then [byte.toNat / 16, byte.toNat % 16] else [byte.toNat]

/-- The first instruction in some bytes, and the bytes after it. Places that are given one by one
fill pairs of bytes. -/
def read? (depth : Nat) : List UInt8 → Option (Instruction × List UInt8)
  | 0 :: 0 :: rest => some (endOfRow, rest)
  | 0 :: 1 :: rest => some (endOfPicture, rest)
  | 0 :: 2 :: columns :: rows :: rest => some (skip columns.toNat rows.toNat, rest)
  | [0, 2] | [0, 2, _] => none
  | 0 :: count :: rest =>
    let size := (count.toNat * depth + 15) / 16 * 2
    let content := rest.take size
    if content.length < size then none
    else some (stored ((content.flatMap (placesIn depth)).take count.toNat), rest.drop size)
  | count :: byte :: rest =>
    some (run ((List.replicate count.toNat (placesIn depth byte)).flatten.take count.toNat), rest)
  | _ => none

theorem length_of_read? {depth : Nat} {bytes rest : List UInt8} {i : Instruction}
    (h : read? depth bytes = some (i, rest)) : rest.length < bytes.length := by
  unfold read? at h
  split at h <;> simp_all
  all_goals try omega
  have := congrArg List.length h.2.2
  rw [List.length_drop] at this
  omega

end Instruction

/-- A brush over a picture of a given size. -/
structure Brush where
  width : Nat
  height : Nat
  /-- The row it is at, from below. -/
  row : Nat
  /-- The column it is at. A run that is too long takes it out of the picture. -/
  column : Nat
  /-- What is painted, row by row from below. -/
  painted : Array (Option Nat)

namespace Brush

/-- A brush before the first pixel. -/
def new (width height : Nat) : Brush := ⟨width, height, 0, 0, Array.replicate (width * height) none⟩

/-- Paints places from where the brush is, as far as the row goes. -/
def paint (b : Brush) (places : List Nat) : Brush :=
  let start := b.row * b.width + b.column
  let inRow := (places.take (b.width - b.column)).zipIdx start
  { b with
    column := b.column + places.length
    painted := inRow.foldl (fun painted (place, i) => painted.setIfInBounds i (some place))
      b.painted }

/-- Does what an instruction says. Only a run may leave the row. -/
def step? (b : Brush) : Instruction → Option Brush
  | .run places => some (b.paint places)
  | .stored places => if b.width < b.column + places.length then none else some (b.paint places)
  | .skip columns 0 =>
    if b.width < min b.column b.width + columns then none
    else some { b with column := b.column + columns }
  | .skip columns rows =>
    if b.height ≤ b.row + rows || b.width < b.column + columns then none
    else some { b with row := b.row + rows, column := b.column + columns }
  | .endOfRow => some { b with row := b.row + 1, column := 0 }
  | .endOfPicture => some { b with row := b.height, column := 0 }

/-- What is painted once the instructions in some bytes are done, or all rows are, and the bytes
that are left. -/
def follow? (depth : Nat) (b : Brush) (bytes : List UInt8) :
    Option (Array (Option Nat) × List UInt8) :=
  if b.height ≤ b.row then some (b.painted, bytes)
  else
    match h : Instruction.read? depth bytes with
    | none => none
    | some (i, rest) =>
      have : rest.length < bytes.length := Instruction.length_of_read? h
      (b.step? i).bind fun b => follow? depth b rest
termination_by bytes.length

end Brush

end RegionCapture.Picture.Bmp
