import RegionCapture.Picture.Exr.Header
import RegionCapture.Picture.Sample
import RegionCapture.Png.Inflate
/-!
# Deep-range pictures

Colours of more than full intensity, in blocks of rows. What is shown need not be where there are
pixels; it is clear elsewhere.
-/

namespace RegionCapture.Picture.Exr

/-- Runs unpacked, up to a number of bytes: one byte to be repeated, or some bytes as they are. -/
def unpackRuns? (left : Nat) (bytes : List UInt8) : Option (List UInt8) :=
  if left = 0 then some []
  else match bytes with
    | [] => some []
    | first :: rest =>
      let stored := if first < 128 then 1 else 256 - first.toNat
      let content := rest.take stored
      if content.length < stored then none
      else
        let content := if first < 128 then (List.replicate (first.toNat + 1) content).flatten
          else content
        if left < content.length then none
        else (unpackRuns? (left - content.length) (rest.drop stored)).map (content ++ ·)
termination_by bytes.length

/-- Bytes from their differences to the byte before. -/
def summed (bytes : List UInt8) : List UInt8 :=
  match bytes with
  | [] => []
  | first :: rest =>
    first :: (rest.foldl (fun (last, done) b =>
      let next := last + b - 128
      (next, next :: done)) (first, [])).2.reverse

/-- The first half of some bytes in the even places, and the second in the odd. -/
def interleaved (bytes : List UInt8) : List UInt8 :=
  let all := bytes.toArray
  let half := (all.size + 1) / 2
  (List.range all.size).map fun i => all.getD (if i % 2 = 0 then i / 2 else half + i / 2) 0

/-- The bytes of a block. What has its full size is not packed. -/
def unpack? (p : Packing) (size : Nat) (bytes : ByteArray) : Option ByteArray := do
  if bytes.size = size then pure bytes
  else
    let content ← match p with
      | .runs => unpackRuns? size bytes.data.toList
      | .deflate => (Png.inflate? bytes).map (·.data.toList)
      | _ => none
    if content.length ≠ size then none
    else pure (interleaved (summed content)).toByteArray

/-- A block: its first row, counted from where there are pixels, and its bytes. -/
structure Block where
  row : Nat
  content : ByteArray

/-- The block at a position. -/
def Block.read? (h : Header) (bytes : ByteArray) (pos : Nat) : Option Block := do
  let y ← signed? bytes pos
  let size ← Bytes.littleAt? bytes (pos + 4) 4
  if y < h.stored.y || h.stored.y + h.stored.height ≤ y || h.rows * h.rowBytes < size
      || bytes.size < pos + 8 + size then
    none
  else
    let row := (y - h.stored.y).toNat / h.rows * h.rows
    let rows := min h.rows (h.stored.height - row)
    let content ← unpack? h.packing (rows * h.rowBytes) (bytes.extract (pos + 8) (pos + 8 + size))
    pure ⟨row, content⟩

/-- The blocks of a picture by their rows. Of two with the same rows the one that is further on in
the file counts. -/
def blocks? (h : Header) (bytes : ByteArray) : Option (Array (Option ByteArray)) :=
  if bytes.size < h.start + 8 * h.blocks then none
  else do
    let starts ← (List.range h.blocks).mapM fun i => Bytes.littleAt? bytes (h.start + 8 * i) 8
    let blocks ← (starts.mergeSort fun m n => m ≤ n).mapM (Block.read? h bytes)
    pure (blocks.foldl (fun all b => all.setIfInBounds (b.row / h.rows) (some b.content))
      (Array.replicate h.blocks none))

/-- The picture in a file. -/
def decode? (bytes : ByteArray) : Option Frame := do
  let h ← Header.read? bytes
  let red ← h.channel? "R"
  let green ← h.channel? "G"
  let blue ← h.channel? "B"
  let alpha := h.channel? "A"
  if maxSamples < h.shown.width * h.shown.height * (if alpha.isSome then 16 else 12) then none
  else
    let blocks ← blocks? h bytes
    pure (Frame.ofFn h.shown.width h.shown.height fun x y =>
      let content := (h.stored.place? (h.shown.x + x) (h.shown.y + y)).bind fun (x, y) =>
        (blocks.getD (y / h.rows) none).map fun content => (content, x, y % h.rows * h.rowBytes)
      match content with
      | none => ⟨0, 0, 0, if alpha.isSome then 0 else 255⟩
      | some (content, x, row) =>
        let part : Nat × SampleKind → UInt8 := fun (first, kind) =>
          let pos := row + first + x * kind.size
          ofUnit (kind.value (Bytes.little (content.extract pos (pos + kind.size)).data.toList))
        ⟨part red, part green, part blue, alpha.elim 255 part⟩)

end RegionCapture.Picture.Exr
