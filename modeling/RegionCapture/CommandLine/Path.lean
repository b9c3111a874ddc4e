import RegionCapture.Text.Blank
/-!
# Paths

Paths as text, with slashes between their parts.
-/

namespace RegionCapture.CommandLine.Path

/-- The parts between the slashes. -/
def parts (path : String) : List String := (Text.split (· == '/') path.toList).map String.ofList

/-- The path counts from the root. -/
def isRooted (path : String) : Bool := path.toList.head? = some '/'

/-- A part that stays where it is. -/
def staysPut (part : String) : Bool := part = "" || part = "."

/-- For each part in a list the parts before it, nearest first. All lists are in reverse, and parts
that stay where they are do not count. -/
def above : List String → List (List String)
  | [] => []
  | part :: rest =>
    if staysPut part then above rest else rest.dropWhile staysPut :: above rest

/-- The folders that a path leads through, as far as they are named: the nearest first, each as its
own path. A single dot in front belongs to the folder; the root, and the place that the path starts
from, have no names. -/
def foldersAbove (path : String) : List String :=
  let (lead, body) := match parts path with
    | first :: body => if staysPut first then ([first], body) else ([], first :: body)
    | [] => ([], [])
  ((above body.reverse).map fun folder => "/".intercalate (lead ++ folder.reverse)).filter (· ≠ "")

/-- The name that a path ends in, unless that is a step. -/
def fileName? (path : String) : Option String :=
  match (parts path).reverse.dropWhile staysPut with
  | name :: _ => if name = ".." then none else some name
  | [] => none

/-- What follows the last point in the name that a path ends in. A point that the name begins with
does not count. -/
def extension? (path : String) : Option String := do
  let name ← fileName? path
  match (Text.split (· == '.') name.toList).reverse with
  | extension :: before => if before = [] || before = [[]] then none else String.ofList extension
  | [] => none

end RegionCapture.CommandLine.Path
