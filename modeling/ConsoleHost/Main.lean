import ConsoleHost.Command.Session

/-! The program: a session held with the streams of the process. -/
namespace ConsoleHost.Command

open Guest

/-- The reason of a system error, with its number. -/
def systemText : IO.Error → String
  | .alreadyExists _ code text | .invalidArgument _ code text | .permissionDenied _ code text
  | .resourceExhausted _ code text | .inappropriateType _ code text | .noSuchThing _ code text
  | .interrupted _ code text | .noFileOrDirectory _ code text
  | .otherError code text | .resourceBusy code text | .resourceVanished code text
  | .unsupportedOperation code text | .hardwareFault code text
  | .unsatisfiedConstraints code text | .illegalOperation code text | .protocolError code text
  | .timeExpired code text => text ++ " (os error " ++ toString code ++ ")"
  | .unexpectedEof => IoKind.unexpectedEof.text
  | .userError text => text

/-- The streams of the process, the input read so far and not yet used, and the log filter. -/
structure Terminal where
  input : IO.FS.Stream
  output : IO.FS.Stream
  messages : IO.FS.Stream
  unused : IO.Ref (List UInt8)
  filter : Log.Filter

namespace Terminal

def note (t : Terminal) (entry : Log.Entry) : IO Unit := do
  if t.filter.enables entry then t.messages.putStr entry.line

/-- The bytes up to a newline or the end of input. -/
partial def readPiece (t : Terminal) : IO (List UInt8) := do
  let bytes ← t.unused.get
  if bytes.any Text.isNewline then
    let (line, rest) := Text.cutLine bytes
    t.unused.set rest
    return line
  let more ← t.input.read 4096
  if more.isEmpty then
    t.unused.set []
    return bytes
  t.unused.set (bytes ++ more.toList)
  t.readPiece

def readLine (t : Terminal) : IO (Option String) := do
  match ← t.readPiece with
  | [] =>
    t.note .endOfInput
    return none
  | line => return some (Text.chomp (Text.decode line))

/-- Text is shown before the next line is read. -/
def write (t : Terminal) (text : String) : IO Unit := do
  t.output.putStr text
  t.output.flush

/-- Holds a dialogue. The first failing call ends it. -/
def hold {α : Type} (t : Terminal) : Dialogue α → IO (Except HostError α)
  | .done a => return .ok a
  | .readLine next => do
    match ← t.readLine.toBaseIO with
    | .ok line => t.hold (next line)
    | .error e => return .error (.io (systemText e))
  | .write text next => do
    match ← (t.write text).toBaseIO with
    | .ok _ => t.hold (next ())
    | .error e => return .error (.io (systemText e))
  | .note entry next => do
    t.note entry
    t.hold (next ())

end Terminal

/-- More steps than can be taken. -/
def endless : Nat := 0x4000000000000000

def readModule (path : String) : IO (Except FileError ModuleFile) := do
  match ← (IO.FS.readBinFile path).toBaseIO with
  | .ok bytes => return .ok ⟨.bytes bytes.toList, some bytes.size⟩
  | .error (.noFileOrDirectory ..) => return .error .notFound
  | .error e => return .error (.other (systemText e))

/-- Shows a text that was asked for. -/
def showText (text : String) : IO UInt32 := do
  let output ← IO.getStdout
  match ← (do output.putStr text; output.flush : IO Unit).toBaseIO with
  | .ok _ => return 0
  | .error e =>
    IO.eprint ("error: cannot write usage message: " ++ systemText e ++ "\n")
    return 1

def Terminal.conclude (t : Terminal) : Outcome → IO UInt32
  | .ok => return 0
  | .failed e => do
    t.note (.failed e.kind)
    t.messages.putStr e.report
    return 1
  | .unfinished => return 1

def runProgram (verbosity : Nat) (path : Option String) : IO UInt32 := do
  let t : Terminal :=
    { input := ← IO.getStdin
      output := ← IO.getStdout
      messages := ← IO.getStderr
      unused := ← IO.mkRef []
      filter := filterOf (← IO.getEnv "RUST_LOG") verbosity }
  let file ← match path with
    | some path => readModule path
    | none => pure (.error .notFound)
  match ← t.hold (runPath .emptyModule endless path fun _ => file) with
  | .ok outcome => t.conclude outcome
  | .error e => t.conclude (.ofConsole e)

end ConsoleHost.Command

open ConsoleHost.Command

def main (args : List String) : IO UInt32 := do
  match Request.ofArguments args with
  | .help => showText helpText
  | .version => showText versionText
  | .refused e => do
    IO.eprint e.message
    return 1
  | .run verbosity path => runProgram verbosity path
