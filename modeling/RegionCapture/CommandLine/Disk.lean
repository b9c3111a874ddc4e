import RegionCapture.CommandLine.Path
import RegionCapture.CommandLine.Run
import RegionCapture.Png.Encode
/-!
# A disk as a value

Folders and files for commands that are run without a machine. A path is walked part by part, and
every part on the way has to be there: a step back out of a folder that does not exist fails just
like a step into it. Places are lists of names, counted from the root.
-/

namespace RegionCapture.CommandLine

/-- What stands at a place. -/
inductive Entry where
  | folder
  | file (content : ByteArray)

/-- Why a path leads nowhere. -/
inductive PathFault where
  | missing
  | taken
  | notFolder
  | tooLong
  deriving DecidableEq, Repr

/-- The fault in the words of the machine. -/
def PathFault.message : PathFault → String
  | .missing => "No such file or directory (os error 2)"
  | .taken => "File exists (os error 17)"
  | .notFolder => "Not a directory (os error 20)"
  | .tooLong => "File name too long (os error 36)"

/-- The most bytes of one name. -/
def maxNameBytes : Nat := 255

/-- The most bytes of a whole path. -/
def maxPathBytes : Nat := 4095

/-- A disk, and the place that paths without a root start from. -/
structure Disk where
  work : List String
  entries : List (List String × Entry)

namespace Disk

/-- What stands at a place. The root is a folder. -/
def entry? (d : Disk) (place : List String) : Option Entry :=
  if place = [] then some .folder else d.entries.lookup place

/-- There is a folder at a place. -/
def isFolder (d : Disk) (place : List String) : Bool :=
  match d.entry? place with
  | some .folder => true
  | _ => false

/-- The disk with an entry put at a place, in the stead of what was there. -/
def put (d : Disk) (place : List String) (entry : Entry) : Disk :=
  { d with entries := (place, entry) :: d.entries.filter (·.1 ≠ place) }

/-- The disk with an entry put at a place and with all folders on the way to it. -/
def putDeep (d : Disk) (place : List String) (entry : Entry) : Disk :=
  let way := (List.range place.length).map place.take
  (way.foldl (fun d folder => if d.isFolder folder then d else d.put folder .folder) d).put
    place entry

/-- A disk with nothing on it but the folder to work in and the device that swallows everything. -/
def blank (work : List String) : Disk :=
  ((Disk.mk work []).putDeep work .folder).putDeep ["dev", "null"] (.file ByteArray.empty)

/-! ## Walking -/

/-- One step from a place. It has to be taken from a folder, and has to lead somewhere. -/
def enter (d : Disk) (place : List String) (part : String) : Except PathFault (List String) :=
  if !d.isFolder place then .error .notFolder
  else if Path.staysPut part then .ok place
  else if part = ".." then .ok place.dropLast
  else if maxNameBytes < part.utf8ByteSize then .error .tooLong
  else if (d.entry? (place ++ [part])).isSome then .ok (place ++ [part])
  else .error .missing

/-- Where the parts of a path lead, from where the path starts. -/
def walk (d : Disk) (path : String) (parts : List String) : Except PathFault (List String) :=
  if maxPathBytes < path.utf8ByteSize then .error .tooLong
  else parts.foldlM d.enter (if Path.isRooted path then [] else d.work)

/-- Where a path leads. -/
def locate (d : Disk) (path : String) : Except PathFault (List String) :=
  d.walk path (Path.parts path)

/-- The place for something new: the path leads up to it, and there is nothing there yet. -/
def vacant (d : Disk) (path : String) : Except PathFault (List String) :=
  match d.walk path (Path.parts path).dropLast with
  | .error e => .error e
  | .ok place =>
    let name := (Path.parts path).getLastD ""
    match d.enter place name with
    | .ok _ => .error .taken
    | .error .missing => .ok (place ++ [name])
    | .error e => .error e

/-! ## Reading -/

/-- What opening a file gives. A folder can be opened, but not read. -/
def bytes (d : Disk) (path : String) : Except String (Option ByteArray) :=
  match d.locate path with
  | .error e => .error e.message
  | .ok place =>
    match d.entry? place with
    | some (.file content) => .ok (some content)
    | _ => .ok none

/-- The disk as the files of a command. -/
def toFiles (d : Disk) : Files := ⟨d.bytes⟩

/-! ## Writing -/

/-- A path leads to a folder. -/
def leadsToFolder (d : Disk) (path : String) : Bool :=
  match d.locate path with
  | .ok place => d.isFolder place
  | .error _ => false

/-- Make one folder. One that is there already will do. -/
def makeFolder (d : Disk) (path : String) : Except PathFault Disk :=
  match d.vacant path with
  | .ok place => .ok (d.put place .folder)
  | .error .taken => if d.leadsToFolder path then .ok d else .error .taken
  | .error e => .error e

/-- Make the first of some folders, of which each stands in the next. -/
def makeFolders (d : Disk) : List String → Except PathFault Disk
  | [] => .ok d
  | path :: outer =>
    match d.makeFolder path with
    | .error .missing =>
      match d.makeFolders outer with
      | .ok d => d.makeFolder path
      | .error e => .error e
    | result => result

/-- Write a file, over what was in it if it was there. -/
def writeFile (d : Disk) (path : String) (content : ByteArray) : Except PathFault Disk :=
  match d.vacant path with
  | .ok place => .ok (d.put place (.file content))
  | .error .taken =>
    match d.locate path with
    | .ok place => if d.isFolder place then .error .taken else .ok (d.put place (.file content))
    | .error e => .error e
  | .error e => .error e

/-- The disk with a picture saved at a path; the folders on the way are made. -/
def save (d : Disk) (path : String) (shown : Canvas) : Except Failure Disk :=
  let folders := Path.foldersAbove path
  match d.makeFolders folders with
  | .error _ => .error (.createFolder (folders.headD ""))
  | .ok d => (d.writeFile path (Png.encode shown)).mapError fun _ => .writeImage path

end Disk

end RegionCapture.CommandLine
