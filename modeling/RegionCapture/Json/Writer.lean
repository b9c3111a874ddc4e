import RegionCapture.Json.Value
/-!
# Writing documents

Two layouts: everything on one line without spaces, or one item or member on each line, indented by
two spaces for each level.
-/

namespace RegionCapture.Json

/-- A character inside a string literal. -/
def quoteChar (c : Char) : List Char :=
  match c with
  | '"' => ['\\', '"']
  | '\\' => ['\\', '\\']
  | '\x08' => ['\\', 'b']
  | '\x0c' => ['\\', 'f']
  | '\n' => ['\\', 'n']
  | '\r' => ['\\', 'r']
  | '\t' => ['\\', 't']
  | c =>
    if c.toNat < 0x20 then
      ['\\', 'u', '0', '0', Nat.digitChar (c.toNat / 16), Nat.digitChar (c.toNat % 16)]
    else [c]

/-- A string literal. What stands for no text is written as the replacement character. -/
def quote (s : Option String) : List Char :=
  '"' :: (s.getD "\ufffd").toList.flatMap quoteChar ++ ['"']

/-- A value that has no parts. -/
def scalarChars : Json → List Char
  | .null => "null".toList
  | .bool true => "true".toList
  | .bool false => "false".toList
  | .number n => n.chars
  | .string s => quote s
  | .array _ => ['[', ']']
  | .object _ => ['\x7b', '\x7d']

mutual

/-- A value on one line. -/
def compactChars : Json → List Char
  | .array l => '[' :: compactItems l ++ [']']
  | .object l => '\x7b' :: compactMembers l ++ ['\x7d']
  | v => scalarChars v

/-- Items with commas between. -/
def compactItems : List Json → List Char
  | [] => []
  | [v] => compactChars v
  | v :: rest => compactChars v ++ ',' :: compactItems rest

/-- Members with commas between. -/
def compactMembers : List (Option String × Json) → List Char
  | [] => []
  | [(name, v)] => quote name ++ ':' :: compactChars v
  | (name, v) :: rest => quote name ++ ':' :: compactChars v ++ ',' :: compactMembers rest

end

/-- A new line at a level. -/
def newLine (level : Nat) : List Char := '\n' :: List.replicate (2 * level) ' '

mutual

/-- A value at a level, over several lines if it has parts. -/
def prettyChars (level : Nat) : Json → List Char
  | .array [] => ['[', ']']
  | .array l => '[' :: prettyItems (level + 1) l ++ newLine level ++ [']']
  | .object [] => ['\x7b', '\x7d']
  | .object l => '\x7b' :: prettyMembers (level + 1) l ++ newLine level ++ ['\x7d']
  | v => scalarChars v

/-- Items, each on lines of its own. -/
def prettyItems (level : Nat) : List Json → List Char
  | [] => []
  | [v] => newLine level ++ prettyChars level v
  | v :: rest => newLine level ++ prettyChars level v ++ ',' :: prettyItems level rest

/-- Members, each on lines of its own. -/
def prettyMembers (level : Nat) : List (Option String × Json) → List Char
  | [] => []
  | [(name, v)] => newLine level ++ quote name ++ ':' :: ' ' :: prettyChars level v
  | (name, v) :: rest =>
    newLine level ++ quote name ++ ':' :: ' ' :: prettyChars level v
      ++ ',' :: prettyMembers level rest

end

/-- The document on one line. -/
def compact (v : Json) : String := String.ofList (compactChars v)

/-- The document over several lines. -/
def pretty (v : Json) : String := String.ofList (prettyChars 0 v)

end RegionCapture.Json
