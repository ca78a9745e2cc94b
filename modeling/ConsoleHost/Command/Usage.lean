import ConsoleHost.Command.Arguments
import ConsoleHost.Text.Escape
import ConsoleHost.Text.Similarity

/-! The texts that tell how the program is used, alone or after a refused argument. -/
namespace ConsoleHost.Command

def programName : String := "stdhost"

/-- A usage line. -/
def usage (parts : List String) : String :=
  "Usage: " ++ " ".intercalate (programName :: parts)

/-- The usage line that names no option. -/
def plainUsage : String := usage ["[OPTIONS]", "[MODULE]"]

def helpText : String :=
  "Wasmtime-based loader that runs a guest module against the `std` host imports\n\n" ++
  plainUsage ++ "\n\n" ++
  "Arguments:\n" ++
  "  [MODULE]  Path to the module (binary `.wasm` or text `.wat`)\n\n" ++
  "Options:\n" ++
  "  -v, --verbose...  Increase log verbosity on stderr (-v, -vv, -vvv)\n" ++
  "  -h, --help        Print help\n" ++
  "  -V, --version     Print version\n"

def versionText : String := programName ++ " 0.1.0\n"

namespace Flag

def option (f : Flag) : String := "--" ++ f.name

/-- A flag in a usage line; dots say that it can be repeated. -/
def usage (f : Flag) : String := if f = verbose then f.option ++ "..." else f.option

/-- How similar a name must be to that of a flag to be taken for a slip. -/
def slip : Float := 0.7

/-- Keeps the flag with the more similar name, or the later one of two. -/
def nearer (name : String) (best : Option (Flag × Float)) (f : Flag) : Option (Flag × Float) :=
  let s := Text.similarity name.toList f.name.toList
  match best with
  | none => if slip < s then some (f, s) else none
  | some (g, t) => if t ≤ s then some (f, s) else some (g, t)

/-- The flag that is meant by an unknown name, if one is similar enough. -/
def meant? (name : String) : Option Flag := (all.foldl (nearer name) none).map (·.1)

end Flag

namespace ArgumentError

/-- After an unknown name the line has what was given, with the flag that was meant. -/
def usageGiven (flags : List Flag) (pathGiven : Bool) : String :=
  if flags.isEmpty && !pathGiven then plainUsage
  else usage (flags.map Flag.usage ++ [if pathGiven then "<MODULE>" else "[MODULE]"])

/-- After a value for a flag the line has the flag, and what was given before as a choice. -/
def usageOfFlag (flag : Flag) (before : List Flag) : String :=
  if before.isEmpty then usage [flag.usage, "[MODULE]"]
  else
    let choice := "<" ++ "|".intercalate (before.map Flag.usage ++ ["MODULE"]) ++ ">"
    usage ((if before.contains flag then [] else [flag.usage]) ++ [choice])

def unexpected (argument : String) : String := "unexpected argument '" ++ argument ++ "' found\n\n"

def tipToPass (argument : String) : String :=
  "  tip: to pass '" ++ argument ++ "' as a value, use '-- " ++ argument ++ "'\n\n"

def tipMeant (flag : Flag) : String :=
  "  tip: a similar argument exists: '" ++ flag.option ++ "'\n\n"

/-- What is wrong, and how the program is used. What was given is quoted without its control
characters. -/
def body : ArgumentError → String
  | unknownLetter letter =>
    let argument := Text.plain (String.ofList ['-', letter])
    unexpected argument ++ tipToPass argument ++ plainUsage
  | unknownName name before pathGiven =>
    let argument := Text.plain ("--" ++ name)
    let meant := Flag.meant? name
    unexpected argument ++ ((meant.map tipMeant).getD (tipToPass argument)) ++
      usageGiven (before ++ meant.toList).eraseDups pathGiven
  | secondPath path => unexpected (Text.plain path) ++ plainUsage
  | valueForFlag flag value before =>
    "unexpected value '" ++ Text.plain value ++ "' for '" ++ flag.usage ++
      "' found; no more were expected\n\n" ++ usageOfFlag flag before
  | emptyPath => "a value is required for '[MODULE]' but none was supplied"

def message (e : ArgumentError) : String :=
  "error: " ++ e.body ++ "\n\nFor more information, try '--help'.\n"

end ArgumentError
end ConsoleHost.Command
