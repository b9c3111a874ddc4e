import RegionCapture.CommandLine.Invocation
import RegionCapture.CommandLine.Path
import RegionCapture.Document.Capture
import RegionCapture.Picture.Format
import RegionCapture.Rasterizer
import RegionCapture.Rect.Crop
import RegionCapture.Session
/-!
# Running a command

What a well-formed command line does, given the files it may look at. Faults say what was being
done, and the cause if there is more to say.
-/

namespace RegionCapture.CommandLine

/-- The files that a command may look at. -/
structure Files where
  /-- What opening a file gives: the words for why it cannot be opened, or its bytes, unless it
  cannot be read. -/
  bytes : String → Except String (Option ByteArray)

/-- The picture in a file. Its name tells how it is stored. -/
def Files.picture (files : Files) (path : String) : Option Frame := do
  let format ← Picture.Format.ofExtension? (← Path.extension? path)
  match files.bytes path with
  | .ok (some bytes) => format.decode? bytes
  | _ => none

/-- Why a command failed. -/
inductive Failure where
  | fault (f : Fault)
  | option (name : String) (f : Fault)
  | openOptions (path cause : String)
  | parseOptions (path : String) (f : Fault)
  | sizeForm (text : String)
  | sizeSide (side text : String) (f : Text.NumeralFault)
  | openImage (path : String)
  | createFolder (path : String)
  | writeImage (path : String)

namespace Failure

/-- What was being done, or the fault by itself. -/
def heading : Failure → String
  | fault f => f.message
  | option name _ => s!"--{name}"
  | openOptions path _ => s!"open options '{path}'"
  | parseOptions path _ => s!"parse options '{path}'"
  | sizeForm text => s!"size must be WIDTHxHEIGHT, got '{text}'"
  | sizeSide side text _ => s!"{side} in '{text}'"
  | openImage path => s!"open image '{path}'"
  | createFolder path => s!"create output dir '{path}'"
  | writeImage path => s!"write png '{path}'"

/-- What went wrong while it was being done. -/
def cause? : Failure → Option String
  | option _ f | parseOptions _ f => some f.message
  | openOptions _ cause => some cause
  | sizeSide _ _ f => some f.message
  | _ => none

/-- A text with every line but the first indented. -/
def indented (text : String) : String :=
  String.ofList (text.toList.flatMap fun c => if c = '\n' then "\n    ".toList else [c])

/-- What a user reads: the cause follows after an empty line. -/
def report (f : Failure) : String :=
  match f.cause? with
  | none => s!"Error: {f.heading}\n"
  | some cause => s!"Error: {f.heading}\n\nCaused by:\n    {indented cause}\n"

end Failure

/-- What a command comes to. -/
inductive Outcome where
  /-- Text for the standard output. -/
  | printed (text : String)
  /-- A picture to be written to a file. -/
  | picture (path : String) (shown : Canvas)
  | failed (f : Failure)

/-- The report on a picture that was written. -/
def writtenReport (path : String) (shown : Canvas) : String :=
  s!"wrote {path} ({shown.size.text})\n"

/-- A field overridden by an option, if the option is given. -/
def override {α : Type} (given : Option α)
    (set : α → Options Float → Except Failure (Options Float)) (o : Options Float) :
    Except Failure (Options Float) :=
  match given with
  | none => .ok o
  | some a => set a o

/-- The capture options in a file. -/
def readOptions (files : Files) (path : String) : Except Failure (Options Float) :=
  match files.bytes path with
  | .error cause => .error (.openOptions path cause)
  | .ok none => .error (.parseOptions path .malformedOptions)
  | .ok (some bytes) => (Options.ofBytes bytes).mapError (.parseOptions path)

/-- The capture options that a command line asks for: those of the file, or the standard ones, with
the fields replaced that options are given for. -/
def captureOptions (files : Files) (flags : CaptureFlags) : Except Failure (Options Float) := do
  let o ← match flags.optionsFile with
    | some path => readOptions files path
    | none => pure Options.standard
  let o ← override flags.crop (fun text o =>
    ((Rect.ofCrop text).map fun r => { o with crop := some r }).mapError (.option "crop")) o
  let o ← override flags.crop2 (fun text o =>
    ((Rect.ofCrop text).map fun r => { o with crop2 := some r }).mapError (.option "crop2")) o
  let o ← override flags.orientation (fun text o =>
    (o.orient text).mapError (.option "capture-orientation")) o
  let o ← override flags.angle (fun angle o => .ok { o with angle := angle }) o
  let o ← override flags.maxSize (fun maxSize o => .ok { o with maxSize := maxSize }) o
  (o.validate.map fun _ => o).mapError .fault

/-- One side of a size. -/
def sizeSide (side text : String) (digits : List Char) : Except Failure Nat :=
  (Text.readNat Text.maxNat32 (Text.trim digits)).mapError (.sizeSide side text)

/-- A size in the form `WIDTHxHEIGHT`. -/
def sizeOf (text : String) : Except Failure Size :=
  match text.toList.dropWhile (· ≠ 'x') with
  | [] => .error (.sizeForm text)
  | _ :: height => do
    let width ← sizeSide "width" text (text.toList.takeWhile (· ≠ 'x'))
    let height ← sizeSide "height" text height
    pure ⟨width, height⟩

/-- Whatever a session reports, as a failure of the command. -/
def orFail {α : Type} (result : Except Fault α) : Except Failure α := result.mapError .fault

/-- A session that is set up and prepared, and its plan. -/
def preparedSession (o : Options Float) (display : FixedDisplay) :
    Except Failure (Plan Float × Session Float Float32) := do
  let session : Session Float Float32 ← orFail (Session.new o ⟨false⟩)
  match session.prepare display.source with
  | (.ok plan, session) => pure (plan, session)
  | (.error e, _) => .error (.fault e)

/-- The text of the plan for a display of the given size. -/
def planText (files : Files) (displaySize : String) (flags : CaptureFlags) :
    Except Failure String := do
  let o ← captureOptions files flags
  let size ← sizeOf displaySize
  let (plan, _) ← preparedSession o (FixedDisplay.new o.displayId size flags.turns)
  pure (plan.toText ++ "\n")

/-- The picture that a capture of one frame shows. -/
def composite (files : Files) (input : String) (flags : CaptureFlags) : Except Failure Canvas := do
  let o ← captureOptions files flags
  match files.picture input with
  | none => .error (.openImage input)
  | some image =>
    let display := FixedDisplay.new o.displayId image.size flags.turns
    let (_, session) ← preparedSession o display
    let started := session.start Rasterizer.renderer FixedDisplay.sink Rasterizer.new display
    let _ ← orFail started.result
    let (rendered, _, target) :=
      started.session.render Rasterizer.renderer (SourceFrame.upright image) started.renderer
    orFail rendered
    orFail target.readBack

/-- Run a command. -/
def run (files : Files) : Invocation → Outcome
  | .plan displaySize flags =>
    match planText files displaySize flags with
    | .ok text => .printed text
    | .error f => .failed f
  | .frame input output flags =>
    match composite files input flags with
    | .ok shown => .picture output shown
    | .error f => .failed f
  | .help topic => .printed topic.text
  | .version => .printed versionText

end RegionCapture.CommandLine
