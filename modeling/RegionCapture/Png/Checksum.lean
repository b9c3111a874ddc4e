/-!
# Checksums

The two checksums of picture files: the cyclic one of chunks, and the sums of compressed data.
-/

namespace RegionCapture.Png

/-- One bit of the cyclic checksum. -/
def crcBit (c : UInt32) : UInt32 :=
  if c &&& 1 = 1 then (c >>> 1) ^^^ 0xEDB88320 else c >>> 1

/-- What eight bits come to, for each value of a byte. -/
def crcTable : Array UInt32 :=
  Array.ofFn fun i : Fin 256 => (List.range 8).foldl (fun c _ => crcBit c) (UInt32.ofNat i.val)

/-- The cyclic checksum of bytes. -/
def crc32 (bytes : ByteArray) : UInt32 :=
  let step (c : UInt32) (b : UInt8) : UInt32 :=
    crcTable[((c ^^^ b.toUInt32) &&& 0xFF).toNat]?.getD 0 ^^^ (c >>> 8)
  bytes.foldl step 0xFFFFFFFF ^^^ 0xFFFFFFFF

/-- The sum of bytes and the sum of those sums, both modulo the largest prime below `2 ^ 16`. -/
def adler32 (bytes : ByteArray) : UInt32 :=
  let step (s : UInt32 × UInt32) (b : UInt8) : UInt32 × UInt32 :=
    let low := (s.1 + b.toUInt32) % 65521
    (low, (s.2 + low) % 65521)
  let (low, high) := bytes.foldl step (1, 0)
  high * 65536 + low

end RegionCapture.Png
