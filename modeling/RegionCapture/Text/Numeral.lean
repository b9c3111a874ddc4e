/-!
# Whole numbers in text

A numeral is an optional sign and at least one decimal digit; leading zeros do not matter. Reading
goes from left to right and stops at the first character that settles the answer.
-/

namespace RegionCapture.Text

/-- Why a text is not a number of the wanted range. -/
inductive NumeralFault where
  | empty
  | badDigit
  | tooLarge
  deriving DecidableEq, Repr

/-- The fault in words. -/
def NumeralFault.message : NumeralFault → String
  | .empty => "cannot parse integer from empty string"
  | .badDigit => "invalid digit found in string"
  | .tooLarge => "number too large to fit in target type"

/-- The value of a decimal digit. -/
def digitValue (c : Char) : Nat := c.toNat - '0'.toNat

/-- Digits appended to the number `n`, which may not pass `largest`. -/
def appendDigits (largest : Nat) : Nat → List Char → Except NumeralFault Nat
  | n, [] => .ok n
  | n, c :: cs =>
    if !c.isDigit then .error .badDigit
    else if largest < 10 * n + digitValue c then .error .tooLarge
    else appendDigits largest (10 * n + digitValue c) cs

/-- One or more digits. -/
def readDigits (largest : Nat) (cs : List Char) : Except NumeralFault Nat :=
  if cs.isEmpty then .error .badDigit else appendDigits largest 0 cs

/-- A number from `0` to `largest`, with or without a plus sign. -/
def readNat (largest : Nat) : List Char → Except NumeralFault Nat
  | [] => .error .empty
  | '+' :: cs => readDigits largest cs
  | cs => readDigits largest cs

/-- The largest signed 32-bit number. -/
def maxInt32 : Nat := 0x7fffffff

/-- The largest unsigned 32-bit number. -/
def maxNat32 : Nat := 0xffffffff

/-- A signed 32-bit number. -/
def readInt32 : List Char → Except NumeralFault Int
  | [] => .error .empty
  | '-' :: cs => (readDigits (maxInt32 + 1) cs).map fun n => -(n : Int)
  | '+' :: cs => (readDigits maxInt32 cs).map fun n => (n : Int)
  | cs => (readDigits maxInt32 cs).map fun n => (n : Int)

end RegionCapture.Text
