import RegionCapture.Fault
import RegionCapture.Text.Blank
/-!
# Drawing programs

A program is given as text, with the names of the inputs that its user means to set. Making it finds
where each of them is declared. A name has the place of its first declaration; uniforms of the
vertex stage come before those of the fragment stage, and one that both stages declare counts once.
-/

namespace RegionCapture

/-- The text of a program and the inputs that have to be there. -/
structure Program where
  label : String
  vertexGlsl : String
  fragmentGlsl : String
  wgsl : String
  attributes : List String
  uniforms : List String
  deriving DecidableEq, Repr

/-- Where the required inputs of a program are. -/
structure Locations where
  attributes : List (String × Nat)
  uniforms : List (String × Nat)
  deriving DecidableEq, Repr

namespace Locations

/-- The location of an attribute. -/
def attribute? (l : Locations) (name : String) : Option Nat := l.attributes.lookup name

/-- The location of a uniform. -/
def uniform? (l : Locations) (name : String) : Option Nat := l.uniforms.lookup name

end Locations

namespace Program

/-- The name that a line declares: the third word of a line whose first is the keyword. Semicolons
at the end do not count. -/
def declaredIn (sort : InputSort) (line : List Char) : Option String :=
  match Text.words (Text.trimEnd (· == ';') (Text.trim line)) with
  | keyword :: _ :: name :: _ =>
    if keyword = sort.keyword.toList then some (String.ofList name) else none
  | _ => none

/-- The names that a text declares, in order. -/
def declared (sort : InputSort) (text : String) : List String :=
  (Text.lines text.toList).filterMap (declaredIn sort)

/-- The attributes that the program declares. -/
def declaredAttributes (p : Program) : List String := declared .attribute p.vertexGlsl

/-- The uniforms that the program declares in either stage. -/
def declaredUniforms (p : Program) : List String :=
  (declared .uniform p.fragmentGlsl).foldl
    (fun names name => if names.contains name then names else names ++ [name])
    (declared .uniform p.vertexGlsl)

/-- The place of a required name among those that are declared. -/
def locate (label : String) (sort : InputSort) (names : List String) (name : String) :
    Except Fault (String × Nat) :=
  match names.idxOf? name with
  | some i => .ok (name, i)
  | none => .error (.missingInput label name sort)

/-- The places of all required inputs, attributes first. -/
def resolve (p : Program) : Except Fault Locations := do
  let attributes ← p.attributes.mapM (locate p.label .attribute p.declaredAttributes)
  let uniforms ← p.uniforms.mapM (locate p.label .uniform p.declaredUniforms)
  pure ⟨attributes, uniforms⟩

end Program

end RegionCapture
