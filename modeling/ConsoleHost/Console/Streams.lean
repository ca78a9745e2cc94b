import ConsoleHost.Console.Basic
import ConsoleHost.Log.Filter
import ConsoleHost.Text.Line
import ConsoleHost.Text.Utf8

/-! The console of a process: lines cut from a stream of bytes, an output stream, and a log. -/
namespace ConsoleHost

structure Streams where
  /-- The bytes not yet read, or why they cannot be read. -/
  input : Except String (List UInt8)
  output : String
  /-- Why nothing can be written, if so. -/
  outputFault : Option String
  filter : Log.Filter
  /-- What was written to the log and error stream. -/
  log : String

namespace Streams

def note (entry : Log.Entry) (s : Streams) : Streams :=
  if s.filter.enables entry then { s with log := s.log ++ entry.line } else s

/-- A line is the bytes up to a newline, or the rest; nothing follows the last of them. -/
def readLine (s : Streams) : Except HostError (Option String) × Streams :=
  match s.input with
  | .error reason => (.error (.io reason), s)
  | .ok [] => (.ok none, s.note .endOfInput)
  | .ok bytes =>
    let (line, rest) := Text.cutLine bytes
    (.ok (some (Text.chomp (Text.decode line))), { s with input := .ok rest })

/-- Writing no text succeeds even where nothing can be written. -/
def write (text : String) (s : Streams) : Except HostError Unit × Streams :=
  match s.outputFault with
  | some reason =>
    if text.isEmpty then (.ok (), s) else (.error (.io reason), s)
  | none => (.ok (), { s with output := s.output ++ text })

def console : Console HostError Streams where
  readLine := readLine
  write := write
  note := note

end Streams
end ConsoleHost
