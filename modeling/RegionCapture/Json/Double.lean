import RegionCapture.Decimal.Style
import RegionCapture.Json.Value
/-!
# Doubles in documents

A numeral is read as a double in two moves. Its digits are gathered in a 64-bit word for as long as
they fit; of the digits that do not, those before the point count as powers of ten and those after
it are dropped. The word is then scaled by one power of ten, with one rounding for each move. The
result can differ from the nearest double in the last place.
-/

namespace RegionCapture

/-- Digits appended to a word for as long as it fits in 64 bits, and the digits that are left. -/
def gatherDigits : Nat → List Char → Nat × List Char
  | word, [] => (word, [])
  | word, c :: cs =>
    let next := 10 * word + (c.toNat - '0'.toNat)
    if next < 0x10000000000000000 then gatherDigits next cs else (word, c :: cs)

/-- `f * 10 ^ exp`, in as many divisions as it takes to stay in the table of powers; none if the
result is infinite. No word is left nonzero after three divisions. -/
def scaleByTen : Nat → Float → Int → Option Float
  | steps, f, exp =>
    if exp.natAbs ≤ 308 then
      if 0 ≤ exp then
        let scaled := f * Float.ofScientific 1 false exp.toNat
        if scaled.isInf then none else some scaled
      else some (f / Float.ofScientific 1 false exp.natAbs)
    else if f == 0 then some f
    else if 0 ≤ exp then none
    else match steps with
      | 0 => some 0
      | steps + 1 => scaleByTen steps (f / 1e308) (exp + 308)

/-- The double that a numeral stands for; none if it is out of range. -/
def Numeral.double? (n : Numeral) : Option Float :=
  let (word, wholeLeft) := gatherDigits 0 n.whole
  let (word, fractionLeft) := gatherDigits word n.fraction
  let exp := (wholeLeft.length : Int) - (n.fraction.length - fractionLeft.length : Nat)
    + n.exponentValue
  (scaleByTen 3 word.toUInt64.toFloat exp).map fun f => if n.negative then -f else f

/-- A double in a document: `null` if it is not finite. -/
def Json.double (x : Float) : Json :=
  if x.isFinite then .number (Decimal.document.numeral x) else .null

end RegionCapture
