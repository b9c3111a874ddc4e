/-!
# Symbols of a document

A document arrives as text or as bytes. Bytes that are no valid text still have to be looked at,
because they are allowed where nobody reads them; so a document is a list of symbols, each a
character or a stray byte.
-/

namespace RegionCapture.Json

/-- A character, or `none` for a byte that belongs to no character. -/
abbrev Symbol := Option Char

/-- The symbols of a text. -/
def symbolsOfText (text : String) : List Symbol := text.toList.map some

/-- The character that the bytes begin with, and how many of them it takes. -/
def firstChar? (bytes : List UInt8) : Option (Char × Nat) :=
  [1, 2, 3, 4].findSome? fun n =>
    match (String.fromUTF8? (bytes.take n).toByteArray).map String.toList with
    | some [c] => some (c, n)
    | _ => none

/-- The symbols of bytes of which some are stray. At most `fuel` symbols are read. -/
def scanBytes : Nat → List UInt8 → List Symbol
  | 0, _ => []
  | _ + 1, [] => []
  | fuel + 1, b :: bytes =>
    match firstChar? (b :: bytes) with
    | some (c, n) => some c :: scanBytes fuel (bytes.drop (n - 1))
    | none => none :: scanBytes fuel bytes

/-- The symbols of a document in UTF-8. -/
def symbolsOfBytes (bytes : ByteArray) : List Symbol :=
  match String.fromUTF8? bytes with
  | some text => symbolsOfText text
  | none => scanBytes bytes.size bytes.data.toList

end RegionCapture.Json
