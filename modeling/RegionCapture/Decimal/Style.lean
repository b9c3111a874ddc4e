import RegionCapture.Decimal.Numeral
import RegionCapture.Decimal.Shortest
/-!
# Writing doubles

A style says how a double is laid out once its shortest digits are known: where numerals with an
exponent begin, whether a whole number keeps a decimal, how an exponent shows its sign, and which of
two equally near decimals is written.
-/

namespace RegionCapture.Decimal

/-- The decisions of a number format. The magnitude of a number is the exponent of its leading
digit. -/
structure Style where
  /-- The magnitudes that are written without an exponent; all of them if there is no range. -/
  positional : Option (Int × Int)
  /-- A whole number is written with one decimal. -/
  keepsPoint : Bool
  /-- The sign of a positive exponent is written. -/
  showsPlus : Bool
  /-- The choice between two equally near decimals. -/
  tie : Tie
  deriving DecidableEq, Repr

/-- Without an exponent: the point put into the digits, with zeros where they end too early. -/
def layoutPositional (style : Style) (negative : Bool) (digits : List Char) (magnitude : Int) :
    Numeral :=
  let whole :=
    if magnitude < 0 then ['0']
    else digits.take (magnitude.toNat + 1)
      ++ List.replicate (magnitude.toNat + 1 - digits.length) '0'
  let fraction :=
    if magnitude < 0 then List.replicate (-magnitude - 1).toNat '0' ++ digits
    else digits.drop (magnitude.toNat + 1)
  { negative := negative
    whole := whole
    fraction := if fraction.isEmpty && style.keepsPoint then ['0'] else fraction
    exponent := none }

/-- With an exponent: one digit before the point. -/
def layoutExponent (style : Style) (negative : Bool) (digits : List Char) (magnitude : Int) :
    Numeral :=
  let sign : ExponentSign :=
    if magnitude < 0 then .minus else if style.showsPlus then .plus else .none
  { negative := negative
    whole := digits.take 1
    fraction := digits.drop 1
    exponent := some (sign, Nat.toDigits 10 magnitude.natAbs) }

/-- The numeral of a finite double. -/
def Style.numeral (style : Style) (x : Float) : Numeral :=
  let negative := x.toBits.toNat ≥ 0x8000000000000000
  let binary := Binary.ofBits x.toBits
  if binary.mantissa = 0 then layoutPositional style negative ['0'] 0
  else
    let d := shortest style.tie binary
    let digits := Nat.toDigits 10 d.digits
    let magnitude := d.exp + digits.length - 1
    match style.positional with
    | none => layoutPositional style negative digits magnitude
    | some (least, greatest) =>
      if least ≤ magnitude && magnitude ≤ greatest then
        layoutPositional style negative digits magnitude
      else layoutExponent style negative digits magnitude

/-- A double in running text, with words for what is not finite. -/
def Style.text (style : Style) (x : Float) : String :=
  if x.isNaN then "NaN"
  else if x.isInf then if x < 0 then "-inf" else "inf"
  else String.ofList (style.numeral x).chars

/-- A number by itself in a message: never an exponent, and no decimals that are not needed. -/
def plain : Style := ⟨none, false, false, .up⟩

/-- A number in a list in a message: at least one decimal, and an exponent for the very small and
the very large. -/
def listed : Style := ⟨some (-4, 15), true, false, .up⟩

/-- A number in a document: at least one decimal, and an exponent with its sign for the very small
and the very large. -/
def document : Style := ⟨some (-5, 15), true, true, .even⟩

end RegionCapture.Decimal
