import RegionCapture.Json.Symbol
import RegionCapture.Json.Value
/-!
# Tokens

Cutting a document into tokens, one symbol at a time. `Mode.step` is the whole scanner: it says what
a symbol does in the middle of a token or between two. The grammar is strict: no comments, no
leading zeros, no bare control characters in strings.
-/

namespace RegionCapture

/-- The numeral that a run of characters spells. -/
def Numeral.read? (cs : List Char) : Option Numeral :=
  let unsigned := if cs.head? = some '-' then cs.tail else cs
  let whole := unsigned.takeWhile Char.isDigit
  let afterWhole := unsigned.dropWhile Char.isDigit
  let pointed := afterWhole.head? = some '.'
  let fraction := if pointed then afterWhole.tail.takeWhile Char.isDigit else []
  let afterFraction := if pointed then afterWhole.tail.dropWhile Char.isDigit else afterWhole
  if whole.isEmpty || (whole.head? = some '0' && 1 < whole.length) then none
  else if pointed && fraction.isEmpty then none
  else match exponent? afterFraction with
    | none => none
    | some exponent => some ⟨cs.head? = some '-', whole, fraction, exponent⟩
where
  /-- The exponent that is left at the end: possibly none, but nothing else. -/
  exponent? : List Char → Option (Option (ExponentSign × List Char))
    | [] => some none
    | mark :: cs =>
      if mark = 'e' || mark = 'E' then
        match cs with
        | '+' :: ds => digits? .plus ds
        | '-' :: ds => digits? .minus ds
        | ds => digits? .none ds
      else none
  /-- The digits of an exponent: at least one, and nothing else. -/
  digits? (sign : ExponentSign) (ds : List Char) : Option (Option (ExponentSign × List Char)) :=
    if ds.isEmpty || !ds.all Char.isDigit then none else some (some (sign, ds))

namespace Json

/-- The words of the grammar. -/
inductive Token where
  | objectStart
  | objectEnd
  | arrayStart
  | arrayEnd
  | colon
  | comma
  | null
  | bool (b : Bool)
  | number (n : Numeral)
  | string (s : Option String)
  deriving DecidableEq, Repr

/-- A piece of a string literal. -/
inductive Piece where
  | char (c : Char)
  /-- A 16-bit unit, written with its code. -/
  | unit (code : Nat)
  | stray
  deriving DecidableEq, Repr

/-- The first half of a surrogate pair. -/
def isLead (code : Nat) : Bool := 0xD800 ≤ code && code < 0xDC00

/-- The second half of a surrogate pair. -/
def isTrail (code : Nat) : Bool := 0xDC00 ≤ code && code < 0xE000

/-- The text that pieces make up, if they do. -/
def joinPieces : List Piece → Option (List Char)
  | [] => some []
  | .char c :: rest => (joinPieces rest).map (c :: ·)
  | .stray :: _ => none
  | .unit lead :: .unit trail :: rest =>
    if isLead lead && isTrail trail then
      (joinPieces rest).map (Char.ofNat (0x10000 + (lead - 0xD800) * 0x400 + (trail - 0xDC00)) :: ·)
    else if isLead lead || isTrail lead then none
    else (joinPieces (.unit trail :: rest)).map (Char.ofNat lead :: ·)
  | .unit code :: rest =>
    if isLead code || isTrail code then none
    else (joinPieces rest).map (Char.ofNat code :: ·)

/-- Where the scanner stands. What a token has gathered so far is kept in reverse. -/
inductive Mode where
  | between
  | word (chars : List Char)
  | number (chars : List Char)
  | string (pieces : List Piece)
  | escape (pieces : List Piece)
  | unit (pieces : List Piece) (missing code : Nat)
  deriving DecidableEq, Repr

/-- White space between tokens. -/
def isSpace (c : Char) : Bool := c = ' ' || c = '\n' || c = '\t' || c = '\r'

/-- A character that numerals are made of. -/
def isNumeric (c : Char) : Bool :=
  c.isDigit || c = '-' || c = '+' || c = '.' || c = 'e' || c = 'E'

/-- The token that a word stands for. -/
def wordToken? (word : String) : Option Token :=
  if word = "null" then some .null
  else if word = "true" then some (.bool true)
  else if word = "false" then some (.bool false)
  else none

/-- The character that a one-letter escape stands for. -/
def escaped? (c : Char) : Option Char :=
  match c with
  | '"' => some '"'
  | '\\' => some '\\'
  | '/' => some '/'
  | 'b' => some '\x08'
  | 'f' => some '\x0c'
  | 'n' => some '\n'
  | 'r' => some '\r'
  | 't' => some '\t'
  | _ => none

/-- The value of a hexadecimal digit. -/
def hexValue? (c : Char) : Option Nat :=
  if c.isDigit then some (c.toNat - '0'.toNat)
  else if 'a' ≤ c && c ≤ 'f' then some (c.toNat - 'a'.toNat + 10)
  else if 'A' ≤ c && c ≤ 'F' then some (c.toNat - 'A'.toNat + 10)
  else none

namespace Mode

/-- What a character between two tokens begins or is. -/
def stepBetween (c : Char) : Option (Mode × List Token) :=
  if isSpace c then some (.between, [])
  else if c = '\x7b' then some (.between, [.objectStart])
  else if c = '\x7d' then some (.between, [.objectEnd])
  else if c = '[' then some (.between, [.arrayStart])
  else if c = ']' then some (.between, [.arrayEnd])
  else if c = ':' then some (.between, [.colon])
  else if c = ',' then some (.between, [.comma])
  else if c = '"' then some (.string [], [])
  else if c = '-' || c.isDigit then some (.number [c], [])
  else if c.isLower then some (.word [c], [])
  else none

/-- The token in the making, if the document may stop here. -/
def finish : Mode → Option (List Token)
  | .between => some []
  | .word chars => (wordToken? (String.ofList chars.reverse)).map ([·])
  | .number chars => (Numeral.read? chars.reverse).map fun n => [.number n]
  | _ => none

/-- A character that ends the token in the making and stands for itself. -/
def endWith (m : Mode) (c : Char) : Option (Mode × List Token) := do
  let done ← m.finish
  let (next, tokens) ← stepBetween c
  pure (next, done ++ tokens)

/-- One symbol. -/
def step : Mode → Symbol → Option (Mode × List Token)
  | .between, some c => stepBetween c
  | .word chars, some c =>
    if c.isLower then some (.word (c :: chars), []) else endWith (.word chars) c
  | .number chars, some c =>
    if isNumeric c then some (.number (c :: chars), []) else endWith (.number chars) c
  | .string pieces, some c =>
    if c = '"' then some (.between, [.string ((joinPieces pieces.reverse).map String.ofList)])
    else if c = '\\' then some (.escape pieces, [])
    else if c.toNat < 0x20 then none
    else some (.string (.char c :: pieces), [])
  | .string pieces, none => some (.string (.stray :: pieces), [])
  | .escape pieces, some c =>
    if c = 'u' then some (.unit pieces 4 0, [])
    else (escaped? c).map fun e => (.string (.char e :: pieces), [])
  | .unit pieces missing code, some c =>
    (hexValue? c).map fun digit =>
      if missing ≤ 1 then (.string (.unit (16 * code + digit) :: pieces), [])
      else (.unit pieces (missing - 1) (16 * code + digit), [])
  | _, none => none

/-- The tokens that follow, up to the end of the document. -/
def tokens? : Mode → List Symbol → Option (List Token)
  | m, [] => m.finish
  | m, s :: rest =>
    match m.step s with
    | none => none
    | some (next, now) => (next.tokens? rest).map (now ++ ·)

end Mode

/-- The tokens of a document. -/
def tokens? (symbols : List Symbol) : Option (List Token) := Mode.between.tokens? symbols

end Json

end RegionCapture
