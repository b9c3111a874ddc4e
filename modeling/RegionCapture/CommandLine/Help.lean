import RegionCapture.CommandLine.Flag
/-!
# Help

What the program says about itself.
-/

namespace RegionCapture.CommandLine

/-- What help can be asked about. -/
inductive HelpTopic where
  /-- The program as a whole. -/
  | program
  | frame
  | plan
  /-- The command `help` itself. -/
  | help
  deriving DecidableEq, Repr

/-- The name of the program and its version, as one line. -/
def versionText : String := "splitcap 0.1.0\n"

/-- What the command `frame` does. -/
def frameAbout : String := "Composite one display frame (PNG/JPEG) and write the result as a PNG"

/-- What the command `plan` does. -/
def planAbout : String := "Print the capture plan for a display as JSON"

/-- What the command `help` does. -/
def helpAbout : String := "Print this message or the help of the given subcommand(s)"

/-- A flag in the help of a command: what it does stands on a line of its own. -/
def Flag.help (f : Flag) : List String :=
  ["      --" ++ f.name ++ " <" ++ f.valueName ++ ">", "          " ++ f.about]

/-- The help of a command with flags. -/
def commandHelp (about usage : String) (flags : List Flag) : List String :=
  [about, "", "Usage: splitcap " ++ usage, "", "Options:"] ++ flags.flatMap Flag.help
    ++ ["  -h, --help", "          Print help"]

/-- The lines of the help on a topic. -/
def HelpTopic.lines : HelpTopic → List String
  | .program =>
    ["Usage: splitcap [OPTIONS] <COMMAND>",
     "",
     "Commands:",
     "  frame  " ++ frameAbout,
     "  plan   " ++ planAbout,
     "  help   " ++ helpAbout,
     "",
     "Options:",
     "      --log <LOG>  " ++ logFlag.about,
     "  -h, --help       Print help",
     "  -V, --version    Print version"]
  | .frame => commandHelp frameAbout "frame [OPTIONS] --in <IN_PATH> --out <OUT>" frameFlags
  | .plan => commandHelp planAbout "plan [OPTIONS] --display-size <DISPLAY_SIZE>" planFlags
  | .help =>
    [helpAbout,
     "",
     "Usage: splitcap help [COMMAND]...",
     "",
     "Arguments:",
     "  [COMMAND]...  Print help for the subcommand(s)"]

/-- The help on a topic. -/
def HelpTopic.text (t : HelpTopic) : String := String.join (t.lines.map (· ++ "\n"))

end RegionCapture.CommandLine
