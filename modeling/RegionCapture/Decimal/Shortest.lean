/-!
# Shortest decimals

The decimal with the fewest digits that reads back as a given binary number, and of those the one
nearest to it. All arithmetic is exact.
-/

namespace RegionCapture

/-- The number `digits * 10 ^ exp`. -/
structure Decimal where
  digits : Nat
  exp : Int
  deriving DecidableEq, Repr

namespace Decimal

/-- Which of two equally near decimals is taken. -/
inductive Tie where
  | even
  | up
  deriving DecidableEq, Repr

/-- The magnitude of a finite binary number: `mantissa * 2 ^ exp`. -/
structure Binary where
  mantissa : Nat
  exp : Int
  /-- The number below is half as far away as the number above. -/
  closeBelow : Bool
  deriving DecidableEq, Repr

/-- The magnitude of the finite double with the given bits. -/
def Binary.ofBits (bits : UInt64) : Binary :=
  let field : Nat := bits.toNat >>> 52 % 0x800
  let fraction : Nat := bits.toNat % 0x10000000000000
  if field = 0 then ⟨fraction, -1074, false⟩
  else ⟨0x10000000000000 + fraction, (field : Int) - 1075, fraction == 0 && field != 1⟩

/-- Compare `a * 10 ^ i` with `b * 2 ^ j`. -/
def compareScaled (a : Nat) (i : Int) (b : Nat) (j : Int) : Ordering :=
  compare ((a * Nat.pow 10 i.toNat) <<< (-j).toNat) ((b * Nat.pow 10 (-i).toNat) <<< j.toNat)

/-- The decimal lies among the reals that round to `x`: between the midpoints to its two
neighbours, which belong to `x` themselves if its mantissa is even. -/
def readsBack (x : Binary) (d : Decimal) : Bool :=
  let low := if x.closeBelow then 4 * x.mantissa - 1 else 4 * x.mantissa - 2
  let high := 4 * x.mantissa + 2
  let closed := x.mantissa % 2 == 0
  let below := compareScaled d.digits d.exp low (x.exp - 2)
  let above := compareScaled d.digits d.exp high (x.exp - 2)
  (below == .gt || closed && below == .eq) && (above == .lt || closed && above == .eq)

/-- The least `k` with `x < 10 ^ k`. The binary logarithm gives it up to a step or two. -/
def scale (x : Binary) : Int :=
  let guess := (Nat.log2 x.mantissa + x.exp) * 30103 / 100000
  ([guess - 1, guess, guess + 1, guess + 2].find? fun k =>
    compareScaled 1 k x.mantissa x.exp == .gt).getD (guess + 3)

/-- The better of the two neighbours of `x` among the multiples of `10 ^ k`, if one of them reads
back. -/
def onGrid (tie : Tie) (x : Binary) (k : Int) : Option Decimal :=
  let num := (x.mantissa * Nat.pow 10 (-k).toNat) <<< x.exp.toNat
  let den := Nat.pow 10 k.toNat <<< (-x.exp).toNat
  let below := num / den
  match readsBack x ⟨below, k⟩, readsBack x ⟨below + 1, k⟩ with
  | false, false => none
  | true, false => some ⟨below, k⟩
  | false, true => some ⟨below + 1, k⟩
  | true, true =>
    match compare (2 * num) ((2 * below + 1) * den) with
    | .lt => some ⟨below, k⟩
    | .gt => some ⟨below + 1, k⟩
    | .eq => match tie with
      | .up => some ⟨below + 1, k⟩
      | .even => some (if below % 2 = 0 then ⟨below, k⟩ else ⟨below + 1, k⟩)

/-- The number itself, with as many digits as it takes. -/
def exact (x : Binary) : Decimal :=
  ⟨(x.mantissa * Nat.pow 5 (-x.exp).toNat) <<< x.exp.toNat, min x.exp 0⟩

/-- Zeros at the end of the digits moved into the exponent, at most `fuel` of them. -/
def strip : Nat → Decimal → Decimal
  | 0, d => d
  | fuel + 1, d =>
    if d.digits ≠ 0 ∧ d.digits % 10 = 0 then strip fuel ⟨d.digits / 10, d.exp + 1⟩ else d

/-- The shortest decimal of a positive number: the coarsest grid with a decimal that reads back
wins. Seventeen digits are enough. -/
def shortest (tie : Tie) (x : Binary) : Decimal :=
  let k := scale x
  let found := (List.range 17).findSome? fun (i : Nat) => onGrid tie x (k - 1 - i)
  strip 1100 (found.getD (exact x))

end Decimal

end RegionCapture
