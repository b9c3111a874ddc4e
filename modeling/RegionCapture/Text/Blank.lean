/-!
# White space

The characters with the Unicode property White_Space, and cutting a text by them.
-/

namespace RegionCapture.Text

/-- First and last code point of each run of white space. -/
def blankRanges : List (Nat × Nat) :=
  [(0x09, 0x0D), (0x20, 0x20), (0x85, 0x85), (0xA0, 0xA0), (0x1680, 0x1680), (0x2000, 0x200A),
   (0x2028, 0x2029), (0x202F, 0x202F), (0x205F, 0x205F), (0x3000, 0x3000)]

/-- White space anywhere in Unicode. -/
def isBlank (c : Char) : Bool :=
  blankRanges.any fun (first, last) => first ≤ c.toNat && c.toNat ≤ last

/-- The text without the characters of a class at its end. -/
def trimEnd (p : Char → Bool) (cs : List Char) : List Char :=
  (cs.reverse.dropWhile p).reverse

/-- The text without white space at its two ends. -/
def trim (cs : List Char) : List Char := trimEnd isBlank (cs.dropWhile isBlank)

/-- Pieces with a character put before them: on its own a character of the class ends a piece. -/
def putBefore (p : Char → Bool) (c : Char) (pieces : List (List Char)) : List (List Char) :=
  if p c then [] :: pieces
  else match pieces with
    | [] => [[c]]
    | piece :: rest => (c :: piece) :: rest

/-- The pieces between the characters of a class, empty pieces included: always one more than there
are such characters. -/
def split (p : Char → Bool) (cs : List Char) : List (List Char) := cs.foldr (putBefore p) [[]]

theorem split_cons (p : Char → Bool) (c : Char) (cs : List Char) :
    split p (c :: cs) = putBefore p c (split p cs) := rfl

/-- The words of a text: what stands between white space. -/
def words (cs : List Char) : List (List Char) :=
  (split isBlank cs).filter fun piece => !piece.isEmpty

/-- The lines of a text. A carriage return at the end of one is white space and stays. -/
def lines (cs : List Char) : List (List Char) := split (· == '\n') cs

end RegionCapture.Text
