import RegionCapture.Png.Inflate
/-!
# Codes for words

Data stored as numbers, each for a word that came before. A new word is the word before it with one
byte more, so every word is a part of what is already unpacked.
-/

namespace RegionCapture.Picture.Lzw

/-- How numbers are stored. -/
structure Style where
  /-- The first bit of a number is the highest in its byte. -/
  isHighFirst : Bool
  /-- Bits of a byte of the data. -/
  symbolBits : Nat
  /-- Numbers become longer one word early. -/
  isEarly : Bool

namespace Style

/-- The number that forgets all words. The one after it ends the data. -/
def clear (s : Style) : Nat := 1 <<< s.symbolBits

/-- The most bits that a number has. -/
def maxBits : Nat := 12

/-- The number of some bits at a position. -/
def numberAt? (s : Style) (data : ByteArray) (pos bits : Nat) : Option Nat :=
  if s.isHighFirst then
    (List.range bits).foldlM (fun n i =>
      let pos := pos + i
      (Png.bitAt? data (pos / 8 * 8 + (7 - pos % 8))).map fun b => 2 * n + b) 0
  else Png.bitsAt? data pos bits

/-- Bits of the next number, once there are some words. -/
def bitsFor (s : Style) (words bits : Nat) : Nat :=
  let next := s.clear + 2 + words + if s.isEarly then 1 else 0
  if bits < maxBits && 1 <<< bits ≤ next then bits + 1 else bits

end Style

/-- A part of what is unpacked: where it begins, and its length. -/
structure Word where
  start : Nat
  length : Nat

/-- What a number adds to the unpacked data, with the words known so far and the word before. -/
def add? (s : Style) (words : Array Word) (number : Nat) (out : ByteArray) : Option ByteArray :=
  if number < s.clear then some (out.push number.toUInt8)
  else (words[number - s.clear - 2]?).map fun w =>
    Png.copyBack (out.size - w.start) w.length out

/-- Data unpacked from a position on, until there is as much as is wanted. Each number takes a bit
at least, so the number of bits is fuel enough. -/
def unpackFrom (s : Style) (data : ByteArray) (wanted : Nat) :
    Nat → (pos bits : Nat) → Array Word → Option Word → ByteArray → Option ByteArray
  | 0, _, _, _, _, _ => none
  | fuel + 1, pos, bits, words, last, out =>
    if wanted ≤ out.size then some out
    else
      match s.numberAt? data pos bits with
      | none => none
      | some number =>
        let pos := pos + bits
        if number = s.clear then unpackFrom s data wanted fuel pos (s.symbolBits + 1) #[] none out
        else if number = s.clear + 1 then none
        else
          let words := match last with
            | some w =>
              if s.clear + 2 + words.size < 1 <<< Style.maxBits then
                words.push ⟨w.start, w.length + 1⟩
              else words
            | none => words
          match add? s words number out with
          | none => none
          | some more =>
            let word : Word := ⟨out.size, more.size - out.size⟩
            unpackFrom s data wanted fuel pos (s.bitsFor words.size bits) words (some word) more

/-- The first bytes of some data, as many as are wanted. -/
def unpack? (s : Style) (data : ByteArray) (wanted : Nat) : Option ByteArray :=
  (unpackFrom s data wanted (8 * data.size + 1) 0 (s.symbolBits + 1) #[] none
    ByteArray.empty).map (·.extract 0 wanted)

end RegionCapture.Picture.Lzw
