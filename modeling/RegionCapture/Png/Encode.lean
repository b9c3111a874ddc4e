import RegionCapture.Png.Decode
/-!
# Writing pictures

Pictures as PNG files with eight bits for each channel. The data is stored as it is, in blocks.
-/

namespace RegionCapture.Png

/-- A number as four bytes, the highest first. -/
def wordBytes (n : Nat) : ByteArray := (Bytes.ofNat 4 n).reverse.toByteArray

/-- A chunk as it stands in a file. -/
def chunkBytes (name : String) (content : ByteArray) : ByteArray :=
  let named := name.toUTF8 ++ content
  wordBytes content.size ++ named ++ wordBytes (crc32 named).toNat

/-- The rows of a picture, each after a byte for no filter. -/
def rowData (p : Canvas) : ByteArray :=
  (p.pixels.foldl (fun (acc : ByteArray × Nat) c =>
    let (out, x) := acc
    let out := if x = 0 then out.push 0 else out
    (((out.push c.r).push c.g).push c.b |>.push c.a, if x + 1 = p.width then 0 else x + 1))
    (ByteArray.empty, 0)).1

/-- Blocks of stored bytes from a position on. -/
def storedBlocks (data : ByteArray) : Nat → Nat → ByteArray
  | 0, _ => ByteArray.empty
  | left + 1, pos =>
    let length := min 65535 (data.size - pos)
    let heading := (if left = 0 then 1 else 0) :: Bytes.ofNat 2 length
      ++ Bytes.ofNat 2 (65535 - length)
    heading.toByteArray ++ data.extract pos (pos + length) ++ storedBlocks data left (pos + length)

/-- Data in its compressed form, without being made shorter. -/
def store (data : ByteArray) : ByteArray :=
  ⟨#[0x78, 0x01]⟩ ++ storedBlocks data (data.size / 65535 + 1) 0
    ++ wordBytes (adler32 data).toNat

/-- The file of a picture. -/
def encode (p : Canvas) : ByteArray :=
  signature
    ++ chunkBytes "IHDR" (wordBytes p.width ++ wordBytes p.height ++ ⟨#[8, 6, 0, 0, 0]⟩)
    ++ chunkBytes "IDAT" (store (rowData p))
    ++ chunkBytes "IEND" ByteArray.empty

end RegionCapture.Png
