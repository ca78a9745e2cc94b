import ConsoleHost.Command.Files
import ConsoleHost.Command.Usage
import ConsoleHost.Console.Streams
import ConsoleHost.Guest.Program

/-! Sessions of the program: from its arguments to its output, its messages and its exit code. -/
namespace ConsoleHost.Command

open Guest

/-- A module file: its module, and how many bytes it has, where that is known. -/
structure ModuleFile where
  source : Source
  size : Option Nat

/-- What a session finds around it. -/
structure Surroundings where
  /-- What reading a path gives. -/
  read : String → Except FileError ModuleFile
  /-- The bytes of the standard input, or why it cannot be read. -/
  input : Except FileError (List UInt8)
  /-- Why the standard output cannot be written, if so. -/
  outputFault : Option FileError
  /-- The log filter asked for, if any. -/
  logSpec : Option String

/-- What a session leaves. -/
structure Finished where
  exitCode : Nat
  output : String
  messages : String
  deriving DecidableEq, Repr

/-- The level up to which entries are logged if there is no other filter. -/
def levelOf (verbosity : Nat) : Log.Level :=
  match verbosity with
  | 0 => .warn
  | 1 => .info
  | 2 => .debug
  | _ => .trace

/-- A filter that cannot be understood counts as none. -/
def filterOf (logSpec : Option String) (verbosity : Nat) : Log.Filter :=
  (logSpec.bind Log.Filter.parse?).getD (.upTo (levelOf verbosity))

/-- Reads a module, compiles it and runs it. -/
def runFile (decode : Decoder) (fuel : Nat) (path : String) (file : Except FileError ModuleFile) :
    Dialogue Outcome :=
  .note (.readingModule path) fun _ =>
    match file with
    | .error e => .done (.failed (.read path e.text))
    | .ok file =>
      .note (.compilingModule file.size) fun _ =>
        match Program.load decode file.source {} with
        | .error e => .done (.failed e)
        | .ok program => program.run fuel

/-- Without a path there is nothing to run. -/
def runPath (decode : Decoder) (fuel : Nat) (path : Option String)
    (read : String → Except FileError ModuleFile) : Dialogue Outcome :=
  match path with
  | none =>
    .done (.failed (.usage
      ("missing first parameter: input file name\n\nUsage: " ++ programName ++ " <MODULE>")))
  | some path => runFile decode fuel path (read path)

/-- Writes what an outcome leaves to the log and error stream, and gives the exit code. -/
def conclude (s : Streams) : Outcome → Finished
  | .ok => ⟨0, s.output, s.log⟩
  | .failed e =>
    let s := s.note (.failed e.kind)
    ⟨1, s.output, s.log ++ e.report⟩
  | .unfinished => ⟨1, s.output, s.log⟩

/-- Answers a request for a text; that it cannot be written is an error of its own. -/
def answer (w : Surroundings) (text : String) : Finished :=
  match w.outputFault with
  | none => ⟨0, text, ""⟩
  | some e => ⟨1, "", "error: cannot write usage message: " ++ e.text ++ "\n"⟩

/-- The streams at the start of a run. -/
def Surroundings.streams (w : Surroundings) (verbosity : Nat) : Streams where
  input := w.input.mapError (·.text)
  output := ""
  outputFault := w.outputFault.map (·.text)
  filter := filterOf w.logSpec verbosity
  log := ""

/-- A whole session with the given arguments. -/
def session (decode : Decoder) (fuel : Nat) (w : Surroundings) (args : List String) : Finished :=
  match Request.ofArguments args with
  | .help => answer w helpText
  | .version => answer w versionText
  | .refused e => ⟨1, "", e.message⟩
  | .run verbosity path =>
    match (runPath decode fuel path w.read).run Streams.console (w.streams verbosity) with
    | (.ok outcome, s) => conclude s outcome
    | (.error e, s) => conclude s (.ofConsole e)

end ConsoleHost.Command
