import RegionCapture.Png.Inflate
/-!
# Codes of pixels

Prefix codes and the numbers that are written with them. A code with one symbol takes no bits.
-/

namespace RegionCapture.Picture.Webp

/-- Takes bits from some data and fails where they end. The state is the position. -/
abbrev Reader := ReaderT ByteArray (StateT Nat Option)

/-- A number of some bits, the lowest first. -/
def bits (count : Nat) : Reader Nat := fun data pos =>
  (Png.bitsAt? data pos count).map fun n => (n, pos + count)

/-- A bit. -/
def flag : Reader Bool := do pure ((← bits 1) = 1)

/-- A prefix code. -/
inductive Code where
  /-- The only symbol there is. -/
  | always (symbol : Nat)
  /-- One of two symbols, for a bit that is zero or one. -/
  | choice (first second : Nat)
  | words (code : Png.PrefixCode)

namespace Code

/-- The next symbol. -/
def symbol : Code → Reader Nat
  | always symbol => pure symbol
  | choice first second => do pure (if ← flag then second else first)
  | words code => fun data pos => code.symbolAt? data pos

/-- The code in which each symbol has a word of the given length. No word may be left over. -/
def ofLengths? (lengths : List Nat) : Option Code :=
  match lengths.zipIdx.filter fun (length, _) => 0 < length with
  | [] => none
  | [(_, symbol)] => some (always symbol)
  | used =>
    if used.foldl (fun sum (length, _) => sum + 0x8000 >>> length) 0 ≠ 0x8000 then none
    else (Png.PrefixCode.ofLengths? lengths).map words

/-- The order in which the lengths of the code for lengths stand. -/
def lengthOrder : List Nat := [17, 18, 0, 1, 2, 3, 4, 5, 16, 6, 7, 8, 9, 10, 11, 12, 13, 14, 15]

/-- Word lengths under a code of their own, with repetitions of zero or of the length before, kept
in reverse. Those that are not given are zero. -/
def readLengths (code : Code) (wanted : Nat) : (left previous : Nat) → List Nat →
    Reader (List Nat)
  | 0, _, done => pure (done.reverse ++ List.replicate (wanted - done.length) 0)
  | left + 1, previous, done =>
    if wanted ≤ done.length then pure done.reverse
    else do
      let symbol ← code.symbol
      if symbol < 16 then
        readLengths code wanted left (if symbol = 0 then previous else symbol) (symbol :: done)
      else
        let count ← if symbol = 16 then (3 + ·) <$> bits 2
          else if symbol = 17 then (3 + ·) <$> bits 3
          else (11 + ·) <$> bits 7
        if wanted < done.length + count then failure
        else
          readLengths code wanted left previous
            (List.replicate count (if symbol = 16 then previous else 0) ++ done)

/-- A code of one or two symbols that are given. -/
def readSimple (symbols : Nat) : Reader Code := do
  let isPair ← flag
  let isLong ← flag
  let first ← bits (if isLong then 8 else 1)
  let second ← if isPair then bits 8 else pure 0
  if symbols ≤ first || symbols ≤ second then failure
  else pure (if isPair then choice first second else always first)

/-- A code whose words have lengths that are given. -/
def readWords (symbols : Nat) : Reader Code := do
  let count := 4 + (← bits 4)
  let given ← (List.range count).mapM fun _ => bits 3
  let lengths := (List.range 19).map fun s => ((lengthOrder.zip given).lookup s).getD 0
  let some code := ofLengths? lengths | failure
  let left ← if ← flag then do
      let size := 2 + 2 * (← bits 3)
      pure (2 + (← bits size))
    else pure symbols
  if symbols < left then failure
  else
    let some code := ofLengths? (← readLengths code symbols left 8 []) | failure
    pure code

/-- A code for so many symbols. -/
def read (symbols : Nat) : Reader Code := do
  if ← flag then readSimple symbols else readWords symbols

end Code

/-- A length or a distance, from a symbol and the bits that extend it. -/
def extended (symbol : Nat) : Reader Nat :=
  if symbol < 4 then pure (symbol + 1)
  else do
    let extra := (symbol - 2) / 2
    pure ((2 + symbol % 2) <<< extra + (← bits extra) + 1)

end RegionCapture.Picture.Webp
