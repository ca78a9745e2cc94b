import ConsoleHost.Console.Script

/-! Recording consoles: a script whose calls are recorded, and two of which can be made to fail. -/
namespace ConsoleHost

/-- The calls that fail, counted from one over the console's whole life; zero is no call. -/
structure Faults where
  read : Nat
  write : Nat
  message : String
  deriving DecidableEq, Repr

namespace Recorder

inductive Event where
  | read (line : Option String)
  | readFailed
  | wrote (text : String)
  | writeFailed (text : String)
  deriving DecidableEq, Repr

end Recorder

structure Recorder where
  faults : Faults
  script : Script
  /-- The calls made so far. -/
  reads : Nat
  writes : Nat
  events : Array Recorder.Event
  deriving DecidableEq, Repr

namespace Recorder

def start (lines : List String) (faults : Faults) : Recorder :=
  ⟨faults, .ofLines lines, 0, 0, #[]⟩

def error (r : Recorder) : HostError := .io r.faults.message

/-- A failing read takes no line. -/
def readLine (r : Recorder) : Except HostError (Option String) × Recorder :=
  if r.reads + 1 = r.faults.read then
    (.error r.error, { r with reads := r.reads + 1, events := r.events.push .readFailed })
  else
    let (line, script) := r.script.readLine
    (.ok line, { r with reads := r.reads + 1, script, events := r.events.push (.read line) })

/-- A failing write outputs nothing. -/
def write (text : String) (r : Recorder) : Except HostError Unit × Recorder :=
  if r.writes + 1 = r.faults.write then
    (.error r.error, { r with writes := r.writes + 1, events := r.events.push (.writeFailed text) })
  else
    (.ok (), { r with
      writes := r.writes + 1
      script := r.script.write text
      events := r.events.push (.wrote text) })

def console : Console HostError Recorder where
  readLine := readLine
  write := write

/-- The events so far, and a recorder that goes on without them. -/
def takeEvents (r : Recorder) : List Event × Recorder := (r.events.toList, { r with events := #[] })

end Recorder
end ConsoleHost
