/-!
# Numbers in bytes

Numbers as files and buffers hold them: digits to the base 256, the lowest or the highest first.
-/

namespace RegionCapture.Bytes

/-- Bytes as a number, the lowest first. -/
def little : List UInt8 → Nat
  | [] => 0
  | b :: bs => b.toNat + 256 * little bs

/-- Bytes as a number, the highest first. -/
def big (bs : List UInt8) : Nat := little bs.reverse

/-- A number in some bytes, the lowest first. What does not fit is lost. -/
def ofNat : (count n : Nat) → List UInt8
  | 0, _ => []
  | count + 1, n => n.toUInt8 :: ofNat count (n / 256)

/-- The bytes of a part, if they are all there. -/
def part? (bytes : ByteArray) (pos count : Nat) : Option (List UInt8) :=
  if pos + count ≤ bytes.size then some (bytes.extract pos (pos + count)).data.toList else none

/-- The number in a part, the lowest byte first. -/
def littleAt? (bytes : ByteArray) (pos count : Nat) : Option Nat :=
  (part? bytes pos count).map little

/-- The number in a part, the highest byte first. -/
def bigAt? (bytes : ByteArray) (pos count : Nat) : Option Nat := (part? bytes pos count).map big

end RegionCapture.Bytes
