import RegionCapture.Decimal.Numeral
/-!
# Documents

JSON values. Numbers are kept as numerals, so that what a number means is left to whoever reads it;
object members are kept in order, repeated names included.
-/

namespace RegionCapture

/-- A JSON value. A string is `none` if it is well formed but stands for no text: it holds half of
a surrogate pair, or bytes that belong to no character. -/
inductive Json where
  | null
  | bool (b : Bool)
  | number (n : Numeral)
  | string (s : Option String)
  | array (items : List Json)
  | object (members : List (Option String × Json))

namespace Json

/-- A string that is a text. -/
def text (s : String) : Json := .string (some s)

/-- A natural number. -/
def nat (n : Nat) : Json := .number (.ofNat n)

/-- A whole number. -/
def int (n : Int) : Json := .number (.ofInt n)

/-- An object from its members. -/
def record (members : List (String × Json)) : Json :=
  .object (members.map fun (name, value) => (some name, value))

/-- A value that may be missing, shown as `null`. -/
def orNull {α : Type} (encode : α → Json) : Option α → Json
  | none => .null
  | some a => encode a

end Json

end RegionCapture
