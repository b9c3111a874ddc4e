import RegionCapture.CommandLine.Path
import RegionCapture.CommandLine.Run
import RegionCapture.Png.Encode
/-!
# The program

The command line on a real disk. Files that a command names are read before it runs, and a picture
that it makes is written after; everything in between is a value.
-/

namespace RegionCapture.CommandLine

/-- The words for why a file cannot be opened. -/
def openCause (e : IO.Error) : String :=
  match e with
  | .noFileOrDirectory _ code words | .permissionDenied _ code words
  | .inappropriateType _ code words | .invalidArgument _ code words =>
    s!"{words} (os error {code})"
  | e => toString e

/-- What an open file holds, if it can be read. -/
def readHandle (handle : IO.FS.Handle) : IO (Option ByteArray) := do
  try
    some <$> handle.readBinToEnd
  catch _ => pure none

/-- What opening a file gives. -/
def openFile (path : String) : IO (Except String (Option ByteArray)) := do
  try
    let handle ← IO.FS.Handle.mk path .read
    .ok <$> readHandle handle
  catch e => pure (.error (openCause e))

/-- The file of options and the picture that a command names. -/
def namedFiles : Invocation → Option String × Option String
  | .frame input _ flags => (flags.optionsFile, some input)
  | .plan _ flags => (flags.optionsFile, none)
  | .help _ | .version => (none, none)

/-- What opening a file gives, if a file is named. -/
def openNamed : Option String → IO (Except String (Option ByteArray))
  | some path => openFile path
  | none => pure (.ok none)

/-- The files that a command may look at, read from the disk. -/
def readFiles (invocation : Invocation) : IO Files := do
  let (options, input) := namedFiles invocation
  let optionBytes ← openNamed options
  let inputBytes ← openNamed input
  pure ⟨fun path => if options = some path then optionBytes else inputBytes⟩

/-- Make the folder that a picture goes into, if the path names one. -/
def makeParent (path : String) : IO (Option Failure) :=
  match Path.foldersAbove path with
  | [] => pure none
  | parent :: _ => do
    try
      IO.FS.createDirAll parent
      pure none
    catch _ => pure (some (.createFolder parent))

/-- Write a picture. -/
def writePicture (path : String) (shown : Canvas) : IO (Option Failure) := do
  match ← makeParent path with
  | some f => pure (some f)
  | none =>
    try
      IO.FS.writeBinFile path (Png.encode shown)
      pure none
    catch _ => pure (some (.writeImage path))

/-- Report a failure. -/
def reportFailure (f : Failure) : IO UInt32 := do
  IO.eprint f.report
  pure 1

/-- Run the command that a command line asks for. The result is the exit code. -/
def runWords (words : List String) : IO UInt32 := do
  match Invocation.ofWords? words with
  | none =>
    IO.eprint HelpTopic.program.text
    pure 2
  | some invocation =>
    match run (← readFiles invocation) invocation with
    | .failed f => reportFailure f
    | .printed text =>
      IO.print text
      pure 0
    | .picture path shown =>
      match ← writePicture path shown with
      | some f => reportFailure f
      | none =>
        IO.eprint (writtenReport path shown)
        pure 0

end RegionCapture.CommandLine

/-- The program. -/
def main (words : List String) : IO UInt32 := RegionCapture.CommandLine.runWords words
