import RegionCapture.Json.Token
/-!
# Reading documents

Values from tokens. Every value, every item and every member takes a token of its own, so as many
steps as there are tokens are enough.
-/

namespace RegionCapture.Json

mutual

/-- A value at the beginning, in at most `fuel` steps, and what follows it. -/
def readValue : Nat → List Token → Option (Json × List Token)
  | 0, _ => none
  | _ + 1, .null :: rest => some (.null, rest)
  | _ + 1, .bool b :: rest => some (.bool b, rest)
  | _ + 1, .number n :: rest => some (.number n, rest)
  | _ + 1, .string s :: rest => some (.string s, rest)
  | _ + 1, .arrayStart :: .arrayEnd :: rest => some (.array [], rest)
  | fuel + 1, .arrayStart :: rest => (readItems fuel rest).map fun (l, rest) => (.array l, rest)
  | _ + 1, .objectStart :: .objectEnd :: rest => some (.object [], rest)
  | fuel + 1, .objectStart :: rest => (readMembers fuel rest).map fun (l, rest) => (.object l, rest)
  | _ + 1, _ => none

/-- The items of an array up to its end; at least one. -/
def readItems : Nat → List Token → Option (List Json × List Token)
  | 0, _ => none
  | fuel + 1, tokens =>
    match readValue fuel tokens with
    | some (v, .arrayEnd :: rest) => some ([v], rest)
    | some (v, .comma :: rest) => (readItems fuel rest).map fun (l, rest) => (v :: l, rest)
    | _ => none

/-- The members of an object up to its end; at least one. -/
def readMembers : Nat → List Token → Option (List (Option String × Json) × List Token)
  | 0, _ => none
  | fuel + 1, .string name :: .colon :: tokens =>
    match readValue fuel tokens with
    | some (v, .objectEnd :: rest) => some ([(name, v)], rest)
    | some (v, .comma :: rest) =>
      (readMembers fuel rest).map fun (l, rest) => ((name, v) :: l, rest)
    | _ => none
  | _ + 1, _ => none

end

/-- The value that a document holds. -/
def read? (symbols : List Symbol) : Option Json :=
  match tokens? symbols with
  | none => none
  | some tokens =>
    match readValue tokens.length tokens with
    | some (v, []) => some v
    | _ => none

end RegionCapture.Json
