import RegionCapture.Bytes
/-!
# Directories

A directory lists the fields of a picture. A field has a number for its name and a list of numbers
for its value, which stand in the directory if there is room, and elsewhere if not.
-/

namespace RegionCapture.Picture.Tiff

/-- How the numbers of a file are stored. -/
structure Form where
  /-- The highest byte comes first. -/
  isHighFirst : Bool
  /-- Positions have eight bytes, not four. -/
  isLong : Bool

namespace Form

/-- The number in some bytes. -/
def number (f : Form) (bytes : List UInt8) : Nat :=
  if f.isHighFirst then Bytes.big bytes else Bytes.little bytes

/-- The number in a part of a file. -/
def numberAt? (f : Form) (bytes : ByteArray) (pos count : Nat) : Option Nat :=
  (Bytes.part? bytes pos count).map f.number

/-- Bytes of a position. -/
def positionBytes (f : Form) : Nat := if f.isLong then 8 else 4

/-- Bytes of the number of fields. -/
def countBytes (f : Form) : Nat := if f.isLong then 8 else 2

/-- Bytes of a field. -/
def fieldBytes (f : Form) : Nat := 4 + 2 * f.positionBytes

end Form

/-- A field of a directory. -/
structure Field where
  tag : Nat
  /-- The kind of the numbers in its value. -/
  kind : Nat
  /-- How many numbers there are. -/
  count : Nat
  /-- Where the value is, or the position of the value. -/
  pos : Nat

namespace Field

/-- Bytes of a number of a kind. Other kinds are not known. -/
def unitBytes? (kind : Nat) : Option Nat :=
  if [1, 2, 6, 7].contains kind then some 1
  else if [3, 8].contains kind then some 2
  else if [4, 9, 11, 13].contains kind then some 4
  else if [5, 10, 12, 16, 17, 18].contains kind then some 8
  else none

/-- Numbers of the kind are whole and not negative. -/
def isNatural (kind : Nat) : Bool := [1, 3, 4, 7, 13, 16, 18].contains kind

/-- The numbers of a field. -/
def values? (f : Form) (bytes : ByteArray) (field : Field) : Option (List Nat) := do
  let unit ← unitBytes? field.kind
  let size := field.count * unit
  let start ← if size ≤ f.positionBytes then pure field.pos
    else f.numberAt? bytes field.pos f.positionBytes
  if !isNatural field.kind || bytes.size < start + size then none
  else (List.range field.count).mapM fun i => f.numberAt? bytes (start + i * unit) unit

end Field

/-- The fields of a picture, of which the last counts if there are two of one name. -/
structure Directory where
  form : Form
  bytes : ByteArray
  fields : List Field

namespace Directory

/-- The fields of the known kinds at a position. The position of another directory follows, which
is not the same. -/
def fieldsAt? (f : Form) (bytes : ByteArray) (pos : Nat) : Option (List Field) := do
  let count ← f.numberAt? bytes pos f.countBytes
  let first := pos + f.countBytes
  if bytes.size < first + count * f.fieldBytes then none
  else
    let fields ← (List.range count).mapM fun i => do
      let pos := first + i * f.fieldBytes
      pure ⟨← f.numberAt? bytes pos 2, ← f.numberAt? bytes (pos + 2) 2,
        ← f.numberAt? bytes (pos + 4) f.positionBytes, pos + 4 + f.positionBytes⟩
    let next ← f.numberAt? bytes (first + count * f.fieldBytes) f.positionBytes
    if next = pos then none
    else pure (fields.filter fun (field : Field) => (Field.unitBytes? field.kind).isSome)

/-- The order of bytes that a file names first. -/
def isHighFirst? (bytes : ByteArray) : Option Bool := do
  let name ← Bytes.part? bytes 0 2
  if name = "II".toUTF8.data.toList then some false
  else if name = "MM".toUTF8.data.toList then some true
  else none

/-- The first directory of a file. -/
def read? (bytes : ByteArray) : Option Directory := do
  let isHighFirst ← isHighFirst? bytes
  let f : Form := ⟨isHighFirst, false⟩
  match ← f.numberAt? bytes 2 2 with
  | 42 => pure ⟨f, bytes, ← fieldsAt? f bytes (← f.numberAt? bytes 4 4)⟩
  | 43 =>
    if (← f.numberAt? bytes 4 2) ≠ 8 || (← f.numberAt? bytes 6 2) ≠ 0 then none
    else
      let f := { f with isLong := true }
      pure ⟨f, bytes, ← fieldsAt? f bytes (← f.numberAt? bytes 8 8)⟩
  | _ => none

/-- The field with a name. -/
def field? (d : Directory) (tag : Nat) : Option Field := d.fields.reverse.find? (·.tag = tag)

/-- There is a field with a name. -/
def has (d : Directory) (tag : Nat) : Bool := (d.field? tag).isSome

/-- The numbers of a field that has to be there. -/
def values? (d : Directory) (tag : Nat) : Option (List Nat) := do
  (← d.field? tag).values? d.form d.bytes

/-- The one number of a field that has to be there. -/
def value? (d : Directory) (tag : Nat) : Option Nat := do
  match ← d.values? tag with
  | [n] => pure n
  | _ => none

/-- The one number of a field, or what stands for a missing one. -/
def valueOr? (d : Directory) (tag missing : Nat) : Option Nat :=
  if d.has tag then d.value? tag else some missing

/-- The numbers of a field, or what stands for missing ones. -/
def valuesOr? (d : Directory) (tag : Nat) (missing : List Nat) : Option (List Nat) :=
  if d.has tag then d.values? tag else some missing

end Directory

end RegionCapture.Picture.Tiff
