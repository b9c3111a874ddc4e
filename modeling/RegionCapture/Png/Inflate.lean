/-!
# Compressed data

Unpacking data that is stored in blocks: as it is, or as literals and copies of what came before,
both under a prefix code. Bits are taken from the low end of each byte.
-/

namespace RegionCapture.Png

/-- The bit at a position. -/
def bitAt? (data : ByteArray) (pos : Nat) : Option Nat :=
  if pos / 8 < data.size then some ((data.get! (pos / 8)).toNat >>> (pos % 8) % 2) else none

/-- A number of some bits, the lowest first. -/
def bitsAt? (data : ByteArray) (pos count : Nat) : Option Nat :=
  (List.range count).foldlM (fun n i => (bitAt? data (pos + i)).map fun b => n + b <<< i) 0

/-- A prefix code: how many words there are of each length, and the symbols in the order of their
words. -/
structure PrefixCode where
  counts : Array Nat
  symbols : Array Nat

namespace PrefixCode

/-- The code in which each symbol has a word of the given length; zero is for no word. A code with
more words than there is room for is refused. -/
def ofLengths? (lengths : List Nat) : Option PrefixCode :=
  let counts := (List.range 16).map fun len => if len = 0 then 0 else lengths.count len
  let room := counts.tail.foldl (fun (left : Int) (n : Nat) => 2 * left - n) 1
  if room < 0 && counts.tail.any (0 < ·) then none
  else
    let symbols := (List.range 16).tail.flatMap fun len =>
      lengths.zipIdx.filterMap fun (l, symbol) => if l = len then some symbol else none
    some ⟨counts.toArray, symbols.toArray⟩

/-- The symbol whose word is next, and where it ends. Words have at most `15 - len` bits more. -/
def decode (c : PrefixCode) (data : ByteArray) : (left len word first index pos : Nat) →
    Option (Nat × Nat)
  | 0, _, _, _, _, _ => none
  | left + 1, len, word, first, index, pos =>
    match bitAt? data pos with
    | none => none
    | some b =>
      let word := word + b
      let count := c.counts[len]?.getD 0
      if word < first + count then (c.symbols[index + (word - first)]?).map fun s => (s, pos + 1)
      else decode c data left (len + 1) (2 * word) (2 * (first + count)) (index + count) (pos + 1)

/-- The symbol at a position, and where it ends. -/
def symbolAt? (c : PrefixCode) (data : ByteArray) (pos : Nat) : Option (Nat × Nat) :=
  c.decode data 15 1 0 0 0 pos

end PrefixCode

/-- The shortest copy for each length symbol, and the number of bits that extend it. -/
def lengthTable : Array (Nat × Nat) :=
  #[(3, 0), (4, 0), (5, 0), (6, 0), (7, 0), (8, 0), (9, 0), (10, 0), (11, 1), (13, 1), (15, 1),
    (17, 1), (19, 2), (23, 2), (27, 2), (31, 2), (35, 3), (43, 3), (51, 3), (59, 3), (67, 4),
    (83, 4), (99, 4), (115, 4), (131, 5), (163, 5), (195, 5), (227, 5), (258, 0)]

/-- The shortest distance for each distance symbol, and the number of bits that extend it. -/
def distanceTable : Array (Nat × Nat) :=
  #[(1, 0), (2, 0), (3, 0), (4, 0), (5, 1), (7, 1), (9, 2), (13, 2), (17, 3), (25, 3), (33, 4),
    (49, 4), (65, 5), (97, 5), (129, 6), (193, 6), (257, 7), (385, 7), (513, 8), (769, 8),
    (1025, 9), (1537, 9), (2049, 10), (3073, 10), (4097, 11), (6145, 11), (8193, 12), (12289, 12),
    (16385, 13), (24577, 13)]

/-- The number at a row of a table, extended by bits, and where they end. -/
def extended? (table : Array (Nat × Nat)) (row : Nat) (data : ByteArray) (pos : Nat) :
    Option (Nat × Nat) := do
  let (base, extra) ← table[row]?
  let more ← bitsAt? data pos extra
  pure (base + more, pos + extra)

/-- Bytes repeated from some distance back. -/
def copyBack (distance : Nat) : Nat → ByteArray → ByteArray
  | 0, out => out
  | n + 1, out => copyBack distance n (out.push (out.get! (out.size - distance)))

/-- The literals and copies of a block, up to its end. Each takes a bit at least, so the number of
bits is fuel enough. -/
def unpackWords (literals distances : PrefixCode) (data : ByteArray) : Nat → Nat → ByteArray →
    Option (Nat × ByteArray)
  | 0, _, _ => none
  | fuel + 1, pos, out =>
    match literals.symbolAt? data pos with
    | none => none
    | some (symbol, pos) =>
      if symbol < 256 then unpackWords literals distances data fuel pos (out.push symbol.toUInt8)
      else if symbol = 256 then some (pos, out)
      else
        match extended? lengthTable (symbol - 257) data pos with
        | none => none
        | some (length, pos) =>
          match (distances.symbolAt? data pos).bind fun (row, pos) =>
              extended? distanceTable row data pos with
          | none => none
          | some (distance, pos) =>
            if out.size < distance then none
            else unpackWords literals distances data fuel pos (copyBack distance length out)

/-- The code that is used when none is given. -/
def fixedLengths : List Nat :=
  List.replicate 144 8 ++ List.replicate 112 9 ++ List.replicate 24 7 ++ List.replicate 8 8

/-- The order in which the lengths of the code for lengths stand. -/
def lengthOrder : List Nat := [16, 17, 18, 0, 8, 7, 9, 6, 10, 5, 11, 4, 12, 3, 13, 2, 14, 1, 15]

/-- Word lengths under a code of their own, with repetitions, kept in reverse. -/
def readLengths (code : PrefixCode) (data : ByteArray) (wanted : Nat) : Nat → Nat → List Nat →
    Option (Nat × List Nat)
  | 0, _, _ => none
  | fuel + 1, pos, done =>
    if wanted ≤ done.length then
      if done.length = wanted then some (pos, done.reverse) else none
    else
      match code.symbolAt? data pos with
      | none => none
      | some (symbol, pos) =>
        if symbol < 16 then readLengths code data wanted fuel pos (symbol :: done)
        else
          let (base, extra, value) : Nat × Nat × Option Nat :=
            if symbol = 16 then (3, 2, done.head?)
            else if symbol = 17 then (3, 3, some 0)
            else (11, 7, some 0)
          match value, bitsAt? data pos extra with
          | some value, some more =>
            readLengths code data wanted fuel (pos + extra)
              (List.replicate (base + more) value ++ done)
          | _, _ => none

/-- The two codes at the beginning of a block that brings its own, and where they end. -/
def readCodes? (data : ByteArray) (pos : Nat) : Option (PrefixCode × PrefixCode × Nat) := do
  let literalCount := (← bitsAt? data pos 5) + 257
  let distanceCount := (← bitsAt? data (pos + 5) 5) + 1
  let lengthCount := (← bitsAt? data (pos + 10) 4) + 4
  let pos := pos + 14
  let given ← (List.range lengthCount).mapM fun i => bitsAt? data (pos + 3 * i) 3
  let lengths := (List.range 19).map fun symbol => ((lengthOrder.zip given).lookup symbol).getD 0
  let code ← PrefixCode.ofLengths? lengths
  let wanted := literalCount + distanceCount
  let (pos, all) ← readLengths code data wanted (wanted + 1) (pos + 3 * lengthCount) []
  let literals ← PrefixCode.ofLengths? (all.take literalCount)
  let distances ← PrefixCode.ofLengths? (all.drop literalCount)
  pure (literals, distances, pos)

/-- A block of stored bytes: it begins at a whole byte, with its length twice. -/
def unpackStored (data : ByteArray) (pos : Nat) (out : ByteArray) : Option (Nat × ByteArray) := do
  let start := (pos + 7) / 8
  let length ← bitsAt? data (8 * start) 16
  let inverted ← bitsAt? data (8 * start + 16) 16
  if length + inverted ≠ 65535 || data.size < start + 4 + length then none
  else some (8 * (start + 4 + length), out ++ data.extract (start + 4) (start + 4 + length))

/-- One block, and where it ends. -/
def unpackBlock (data : ByteArray) (pos kind : Nat) (out : ByteArray) :
    Option (Nat × ByteArray) := do
  match kind with
  | 0 => unpackStored data pos out
  | 1 =>
    let literals ← PrefixCode.ofLengths? fixedLengths
    let distances ← PrefixCode.ofLengths? (List.replicate 30 5)
    unpackWords literals distances data (8 * data.size) pos out
  | 2 =>
    let (literals, distances, pos) ← readCodes? data pos
    unpackWords literals distances data (8 * data.size) pos out
  | _ => none

/-- Blocks up to the one that is marked as the last. -/
def unpackBlocks (data : ByteArray) : Nat → Nat → ByteArray → Option ByteArray
  | 0, _, _ => none
  | fuel + 1, pos, out =>
    match bitAt? data pos, bitsAt? data (pos + 1) 2 with
    | some last, some kind =>
      match unpackBlock data (pos + 3) kind out with
      | none => none
      | some (pos, out) => if last = 1 then some out else unpackBlocks data fuel pos out
    | _, _ => none

/-- Compressed data unpacked, behind its two bytes of heading. -/
def inflate? (data : ByteArray) : Option ByteArray := do
  let heading ← bitsAt? data 0 16
  let method := heading % 256
  let flags := heading / 256
  if method % 16 ≠ 8 || (256 * method + flags) % 31 ≠ 0 || flags / 32 % 2 = 1 then none
  else unpackBlocks data data.size 16 ByteArray.empty

end RegionCapture.Png
