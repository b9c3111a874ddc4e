import RegionCapture.CommandLine.Help
/-!
# Command lines

What the words of a command line ask for. There are two commands, `frame` and `plan`; flags are
written `--name value` or `--name=value`, each at most once. A value of its own may not look like a
flag, unless the flag is one that takes negative numbers. Words are looked at from left to right,
and the first one that is wrong, or that asks for help, settles the matter.
-/

namespace RegionCapture.CommandLine

/-- The options that both commands have. -/
structure CaptureFlags where
  /-- A file of capture options; the other options override its fields. -/
  optionsFile : Option String
  /-- Counter-clockwise quarter turns of the display. -/
  turns : Nat
  crop : Option String
  crop2 : Option String
  orientation : Option String
  angle : Option Float
  maxSize : Option Nat

/-- A command with its options. -/
inductive Invocation where
  /-- Composite one picture and write the result. -/
  | frame (input output : String) (flags : CaptureFlags)
  /-- Print the plan for a display. -/
  | plan (displaySize : String) (flags : CaptureFlags)
  /-- Print help. -/
  | help (topic : HelpTopic)
  /-- Print the name and version of the program. -/
  | version

/-! ## Words -/

/-- A word that cannot be the value of a flag that stands before it. -/
def looksLikeFlag (word : String) : Bool :=
  match word.toList with
  | '-' :: _ :: _ => true
  | _ => false

/-- A flag word taken apart: its name, and its value if that is attached. -/
def flagWord? (word : String) : Option (String × Option String) :=
  match word.toList with
  | '-' :: '-' :: c :: cs =>
    let name := (c :: cs).takeWhile (· ≠ '=')
    match (c :: cs).dropWhile (· ≠ '=') with
    | [] => some (String.ofList name, none)
    | _ :: value => some (String.ofList name, some (String.ofList value))
  | _ => none

/-- The word is a long name without a value, or a hyphen with a letter, whatever follows that. -/
def isSwitch (letter : Char) (name word : String) : Bool :=
  word = "--" ++ name || word.toList.take 2 = ['-', letter]

/-- The word asks for help. -/
def asksHelp (word : String) : Bool := isSwitch 'h' "help" word

/-- The word asks for the version. -/
def asksVersion (word : String) : Bool := isSwitch 'V' "version" word

/-! ## Flags -/

/-- What the words after a command come to. -/
inductive Given where
  /-- Flags with their values. -/
  | values (l : List (String × String))
  | help

/-- The flag can be given with this value, after the flags given so far. -/
def mayFollow (flags : List Flag) (given : List (String × String)) (name value : String) : Bool :=
  !given.any (·.1 = name) && flags.any fun flag => flag.name = name && flag.admits value

/-- The value of the flag with a name may be a word that looks like a flag. -/
def takesHyphen (flags : List Flag) (name : String) : Bool :=
  flags.any fun flag => flag.name = name && flag.takesHyphen

/-- The flags in the words after a command, after those given so far. Two hyphens may end them. -/
def collect (flags : List Flag) (given : List (String × String)) : List String → Option Given
  | [] => some (.values given)
  | word :: words =>
    if word = "--" then if words.isEmpty then some (.values given) else none
    else if asksHelp word then some .help
    else match flagWord? word, words with
      | none, _ => none
      | some (name, some value), words =>
        if mayFollow flags given name value then collect flags (given ++ [(name, value)]) words
        else none
      | some (_, none), [] => none
      | some (name, none), value :: words =>
        if looksLikeFlag value && !takesHyphen flags name then none
        else if mayFollow flags given name value then
          collect flags (given ++ [(name, value)]) words
        else none

/-- The value of a flag that may be left out, read by `read?`; `none` if it is given and cannot be
read. -/
def valueOf {α : Type} (given : List (String × String)) (name : String)
    (read? : String → Option α) : Option (Option α) :=
  match given.lookup name with
  | none => some none
  | some value => (read? value).map some

/-- The options of both commands among the flags given. -/
def captureFlags? (given : List (String × String)) : Option CaptureFlags := do
  let optionsFile ← valueOf given "options" path?
  let turns ← valueOf given "rotation" (numberUpTo 3)
  let crop ← valueOf given "crop" some
  let crop2 ← valueOf given "crop2" some
  let orientation ← valueOf given "capture-orientation" some
  let angle ← valueOf given "angle" angle?
  let maxSize ← valueOf given "max-size" (numberUpTo Text.maxNat32)
  pure ⟨optionsFile, turns.getD 0, crop, crop2, orientation, angle, maxSize⟩

/-! ## Commands -/

/-- The command `frame` with its flags, unless one that it needs is missing. -/
def frame? (given : List (String × String)) : Option Invocation := do
  let input ← (← valueOf given "in" path?)
  let output ← (← valueOf given "out" path?)
  pure (.frame input output (← captureFlags? given))

/-- The command `plan` with its flags, unless one that it needs is missing. -/
def plan? (given : List (String × String)) : Option Invocation := do
  let displaySize ← (← valueOf given "display-size" some)
  pure (.plan displaySize (← captureFlags? given))

/-- A command from the words after it. -/
def withFlags (flags : List Flag) (topic : HelpTopic)
    (make : List (String × String) → Option Invocation) (words : List String) : Option Invocation :=
  match collect flags [] words with
  | some (.values given) => make given
  | some .help => some (.help topic)
  | none => none

/-- What help is asked about by the words after the command `help`. -/
def helpTopic? : List String → Option HelpTopic
  | [] => some .program
  | ["frame"] => some .frame
  | ["plan"] => some .plan
  | ["help"] => some .help
  | _ => none

/-- The command after the words that come before it. The log level may be one of them. -/
def command? (logGiven : Bool) : List String → Option Invocation
  | [] => none
  | word :: words =>
    if word = "frame" then withFlags frameFlags .frame frame? words
    else if word = "plan" then withFlags planFlags .plan plan? words
    else if word = "help" then (helpTopic? words).map .help
    else if asksHelp word then some (.help .program)
    else if asksVersion word then some .version
    else match flagWord? word, words with
      | some ("log", some level), words =>
        if logGiven || !logFlag.admits level then none else command? true words
      | some ("log", none), level :: words =>
        if logGiven || looksLikeFlag level || !logFlag.admits level then none
        else command? true words
      | _, _ => none

/-- What a command line asks for, if it is well formed. -/
def Invocation.ofWords? (words : List String) : Option Invocation := command? false words

end RegionCapture.CommandLine
