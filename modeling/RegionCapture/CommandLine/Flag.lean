import RegionCapture.Decimal.Real
import RegionCapture.Text.Numeral
/-!
# Flags

The options that can stand on a command line: their names, the values that they take, and what help
says of them.
-/

namespace RegionCapture.CommandLine

/-! ## Values -/

/-- A path: any text but the empty one. -/
def path? (text : String) : Option String := if text = "" then none else some text

/-- A whole number up to a bound, with or without a sign. -/
def numberUpTo (largest : Nat) (text : String) : Option Nat :=
  match text.toList with
  | '-' :: cs => (Text.readDigits 0 cs).toOption
  | cs => (Text.readNat largest cs).toOption

/-- An angle in degrees. -/
def angle? (text : String) : Option Float := Decimal.real? text.toList

/-- A log level: a name, or a number from 1 to 5. It changes nothing and is not kept. -/
def logLevel? (text : String) : Option Unit :=
  let isName := ["error", "warn", "info", "debug", "trace"].contains (Decimal.lowered text.toList)
  let isNumber := match Text.readNat 5 text.toList with
    | .ok n => 1 ≤ n
    | .error _ => false
  if isName || isNumber then some () else none

/-- The renderer to use; there is one. -/
def backend? (text : String) : Option Unit := if text = "cpu" then some () else none

/-! ## Tables -/

/-- An option that takes one value. -/
structure Flag where
  name : String
  /-- What help calls the value. -/
  valueName : String
  about : String
  /-- The value may begin with a hyphen even if it is a word of its own. -/
  takesHyphen : Bool
  /-- The values that are not refused. -/
  admits : String → Bool

/-- A flag with the values that a reader makes something of. -/
def Flag.read {α : Type} (read? : String → Option α) (name valueName about : String) : Flag :=
  ⟨name, valueName, about, false, fun value => (read? value).isSome⟩

/-- The log level, which can be given anywhere. -/
def logFlag : Flag := .read logLevel? "log" "LOG" "Log level written to stderr [default: info]"

/-- The flags of both commands that say what to capture. -/
def captureFlags : List Flag :=
  [.read path? "options" "OPTIONS" "Capture options JSON; flags below override its fields",
   .read (numberUpTo 3) "rotation" "ROTATION"
    "Display rotation, in counter-clockwise quarter turns [default: 0]",
   .read some "crop" "CROP" "First region crop, `width:height:x:y`",
   .read some "crop2" "CROP2"
    "Second region crop, `width:height:x:y`, packed to the right of the first",
   .read some "capture-orientation" "CAPTURE_ORIENTATION"
    "Capture orientation `[@]<0|90|180|270|flip0|flip90|flip180|flip270>`; `@` locks it",
   { Flag.read angle? "angle" "ANGLE" "Free rotation, degrees clockwise" with takesHyphen := true },
   .read (numberUpTo Text.maxNat32) "max-size" "MAX_SIZE"
    "Longest-edge cap of a single-region capture (0 = none)"]

/-- The flags of the command `frame`, in the order of its help. -/
def frameFlags : List Flag :=
  [.read path? "in" "IN_PATH" "Input display frame", logFlag,
   .read path? "out" "OUT" "Output PNG path",
   .read backend? "backend" "BACKEND" "Backend to use [default: cpu] [possible values: cpu]"]
    ++ captureFlags

/-- The flags of the command `plan`, in the order of its help. -/
def planFlags : List Flag :=
  [.read some "display-size" "DISPLAY_SIZE" "Display size, `WIDTHxHEIGHT` (already rotated)",
   logFlag]
    ++ captureFlags

end RegionCapture.CommandLine
