import RegionCapture.Picture.Sample
/-!
# Masks

The number of a pixel holds its samples in neighbouring bits. A mask says which bits these are.
-/

namespace RegionCapture.Picture.Bmp

/-- The bits of a sample: how many there are, and how many stand below them. -/
structure Mask where
  shift : Nat
  bits : Nat
  deriving DecidableEq, Repr

namespace Mask

/-- The number of bits from a place on that are one, or zero. -/
def countFrom (mask : Nat) (bit : Bool) (place : Nat) : Nat :=
  ((List.range' place (32 - place)).takeWhile fun k => mask.testBit k == bit).length

/-- A mask from the number that has its bits, for pixels of a depth. Of more than eight bits the
highest eight are taken; bits with a gap, or beyond the pixel, are refused. -/
def ofNat? (depth mask : Nat) : Option Mask :=
  let shift := if mask = 0 then 0 else countFrom mask false 0
  let bits := countFrom mask true shift
  if mask ≠ (1 <<< bits - 1) <<< shift || depth < shift + bits then none
  else some ⟨shift + (bits - 8), min bits 8⟩

/-- The sample in a number, if the mask has any bits. -/
def sample? (m : Mask) (n : Nat) : Option UInt8 :=
  if m.bits = 0 then none else some (widen m.bits (n >>> m.shift))

end Mask

/-- The masks of the samples of a pixel. -/
structure Masks where
  red : Mask
  green : Mask
  blue : Mask
  alpha : Mask
  deriving DecidableEq, Repr

namespace Masks

/-- Five bits for each colour. -/
def fiveBits : Masks := ⟨⟨10, 5⟩, ⟨5, 5⟩, ⟨0, 5⟩, ⟨0, 0⟩⟩

/-- Eight bits for each colour. -/
def eightBits : Masks := ⟨⟨16, 8⟩, ⟨8, 8⟩, ⟨0, 8⟩, ⟨0, 0⟩⟩

/-- Every colour has bits. -/
def isWhole (m : Masks) : Bool := m.red.bits ≠ 0 && m.green.bits ≠ 0 && m.blue.bits ≠ 0

/-- The colour in a number. It is opaque if there are no bits for that. -/
def color (m : Masks) (n : Nat) : Rgba :=
  ⟨(m.red.sample? n).getD 0, (m.green.sample? n).getD 0, (m.blue.sample? n).getD 0,
    (m.alpha.sample? n).getD 255⟩

end Masks

end RegionCapture.Picture.Bmp
