import RegionCapture.Json.Double
import RegionCapture.Text.Numeral
/-!
# Taking documents apart

What the values of a document mean. A record is an object, whose unknown members are passed over, or
an array of its fields in order. A name is a string, or an object with the name as its only member
and `null` as its value.
-/

namespace RegionCapture.Json

/-- A natural number up to `largest`, written without a fraction, an exponent or a sign. -/
def nat? (largest : Nat) : Json → Option Nat
  | .number n =>
    if n.isWhole && !n.negative && Numeral.value n.whole ≤ largest then some (Numeral.value n.whole)
    else none
  | _ => none

/-- A signed 32-bit number. Zero has no sign. -/
def int32? : Json → Option Int
  | .number n =>
    let value := Numeral.value n.whole
    if !n.isWhole then none
    else if n.negative then
      if value = 0 || Text.maxInt32 + 1 < value then none else some (-(value : Int))
    else if Text.maxInt32 < value then none
    else some value
  | _ => none

/-- A double. -/
def double? : Json → Option Float
  | .number n => n.double?
  | _ => none

/-- True or false. -/
def bool? : Json → Option Bool
  | .bool b => some b
  | _ => none

/-- One of the things that have a name. -/
def named? {α : Type} (ofName? : String → Option α) : Json → Option α
  | .string (some name) => ofName? name
  | .object [(some name, .null)] => ofName? name
  | _ => none

/-- A value, or `null` for its absence. -/
def optional? {α : Type} (decode : Json → Option α) : Json → Option (Option α)
  | .null => some none
  | v => (decode v).map some

/-- The value of the member with a name: `some none` if there is no such member, and `none` if there
are several. -/
def member? (members : List (String × Json)) (name : String) : Option (Option Json) :=
  match members.filter (·.1 = name) with
  | [] => some none
  | [(_, v)] => some (some v)
  | _ => none

/-- The fields of a record that are there. Names have to be texts, and no field may be given
twice; an array may not be longer than the record. -/
def fields? (names : List String) : Json → Option (List (Option Json))
  | .object members => do
    let members ← members.mapM fun (name, v) => name.map fun name => (name, v)
    names.mapM (member? members)
  | .array items =>
    if items.length ≤ names.length then
      some (items.map some ++ List.replicate (names.length - items.length) none)
    else none
  | _ => none

/-- The fields of a record that has to be complete. -/
def allFields? (names : List String) (v : Json) : Option (List Json) := do
  let fields ← fields? names v
  fields.mapM id

end RegionCapture.Json
