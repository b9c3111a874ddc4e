import RegionCapture.Decimal.Numeral
/-!
# Reading doubles from text

The nearest double to a decimal text. A digit on one side of the point is enough, numbers out of
range become infinite, and infinity and the undefined number can be given by name.
-/

namespace RegionCapture.Decimal

/-- A text in lower case, as far as it is ASCII. -/
def lowered (cs : List Char) : String := String.ofList (cs.map Char.toLower)

/-- The double nearest to `mantissa * 10 ^ exp`. Numbers far out of range are settled by their
magnitude. -/
def nearest (mantissa : Nat) (exp : Int) : Float :=
  let magnitude := (Nat.toDigits 10 mantissa).length + exp
  if mantissa = 0 || magnitude < -340 then 0
  else if 320 < magnitude then 1 / 0
  else Float.ofScientific mantissa (exp < 0) exp.natAbs

/-- The exponent at the end of a number; zero if nothing is left. -/
def exponentAfter? : List Char → Option Int
  | [] => some 0
  | mark :: cs =>
    if mark ≠ 'e' ∧ mark ≠ 'E' then none
    else
      let digits := if cs.head? = some '-' || cs.head? = some '+' then cs.tail else cs
      if digits.isEmpty || !digits.all Char.isDigit then none
      else
        let value : Int := Numeral.value digits
        some (if cs.head? = some '-' then -value else value)

/-- A number without a sign. -/
def unsigned? (cs : List Char) : Option Float :=
  let whole := cs.takeWhile Char.isDigit
  let rest := cs.dropWhile Char.isDigit
  let pointed := rest.head? = some '.'
  let fraction := if pointed then rest.tail.takeWhile Char.isDigit else []
  let rest := if pointed then rest.tail.dropWhile Char.isDigit else rest
  if whole.isEmpty && fraction.isEmpty then none
  else (exponentAfter? rest).map fun exp =>
    nearest (Numeral.value (whole ++ fraction)) (exp - fraction.length)

/-- The double that a text names. -/
def real? (cs : List Char) : Option Float :=
  let negative := cs.head? = some '-'
  let rest := if negative || cs.head? = some '+' then cs.tail else cs
  let magnitude :=
    if lowered rest = "inf" || lowered rest = "infinity" then some (1 / 0)
    else if lowered rest = "nan" then some (0 / 0)
    else unsigned? rest
  magnitude.map fun x => if negative then -x else x

end RegionCapture.Decimal
