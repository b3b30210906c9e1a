import Chronometry.Command.Completion

/-! What the program says when it does not run a command. -/
namespace Chronometry.Command

def Key.usage (key : Key) : String :=
  let long := "--" ++ key.long ++ if key.takesValue then " <" ++ key.long ++ ">" else ""
  match key.short? with
  | some letter => "  -" ++ letter.toString ++ ", " ++ long
  | none => "      " ++ long

def Name.usage (name : Name) : List String := ("  " ++ name.text) :: name.keys.map (("  " ++ ·.usage))

def usageLines : List String :=
  ["Usage: " ++ programName ++ " [OPTIONS] <COMMAND>", "", "Options:"] ++
    outerLevel.keys.map Key.usage ++ ["", "Commands:"] ++ Name.all.flatMap Name.usage

def versionLine : String := programName ++ " 0.1.0"

def LineError.message : LineError → String
  | .help => "help was asked for"
  | .version => "the version was asked for"
  | .nothingGiven => "there is nothing to do"
  | .missingCommand => "a command is missing"
  | .unknownCommand => "there is no such command"
  | .missingArgument => "an argument is missing"
  | .unknownArgument => "an argument is not known"
  | .repeated => "an option is given twice"
  | .invalidValue => "a value is missing or not one of those allowed"
  | .unneededValue => "a flag is given a value"
  | .unreadable message => message
  | .brokenValue => "a value cannot be cut into its parts"

def LineError.lines (e : LineError) : List String :=
  match e with
  | .help | .nothingGiven => usageLines
  | .version => [versionLine]
  | _ => ["error: " ++ e.message]

/-- The exit code of a line that is not run. Asking for a text is no fault; a broken value stops the
program on the spot. -/
def LineError.exitCode : LineError → UInt32
  | .help => 0
  | .version => 0
  | .brokenValue => 101
  | _ => 2

end Chronometry.Command
