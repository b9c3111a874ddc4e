/-!
# Numerals

Decimal numerals taken apart: a sign, digits, a fraction, an exponent. This is how numbers stand in
documents, and how a number is laid out before it is written.
-/

namespace RegionCapture

/-- The sign in front of an exponent, if any. -/
inductive ExponentSign where
  | none
  | plus
  | minus
  deriving DecidableEq, Repr

/-- A decimal numeral. An empty fraction stands for a numeral without a point. -/
structure Numeral where
  negative : Bool
  whole : List Char
  fraction : List Char
  exponent : Option (ExponentSign × List Char)
  deriving DecidableEq, Repr

namespace Numeral

/-- A natural number. -/
def ofNat (n : Nat) : Numeral := ⟨false, Nat.toDigits 10 n, [], none⟩

/-- A whole number. -/
def ofInt (n : Int) : Numeral := ⟨n < 0, Nat.toDigits 10 n.natAbs, [], none⟩

/-- A sign in front of an exponent, as it is written. -/
def signChars : ExponentSign → List Char
  | .none => []
  | .plus => ['+']
  | .minus => ['-']

/-- The numeral, as it is written. -/
def chars (n : Numeral) : List Char :=
  (if n.negative then ['-'] else [])
    ++ n.whole
    ++ (if n.fraction.isEmpty then [] else '.' :: n.fraction)
    ++ (match n.exponent with
      | none => []
      | some (sign, digits) => 'e' :: signChars sign ++ digits)

/-- Neither a fraction nor an exponent. -/
def isWhole (n : Numeral) : Bool := n.fraction.isEmpty && n.exponent.isNone

/-- The value of digits. -/
def value (digits : List Char) : Nat := Nat.ofDigitChars 10 digits 0

/-- The exponent as a number; zero if there is none. -/
def exponentValue (n : Numeral) : Int :=
  match n.exponent with
  | none => 0
  | some (.minus, digits) => -(value digits : Int)
  | some (_, digits) => value digits

end Numeral

end RegionCapture
