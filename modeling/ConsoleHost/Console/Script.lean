import ConsoleHost.Console.Basic

/-! Scripted consoles: lines to read, and all that was written. -/
namespace ConsoleHost

structure Script where
  /-- The lines not yet read. -/
  input : List String
  output : String
  deriving DecidableEq, Repr

namespace Script

def ofLines (lines : List String) : Script := ⟨lines, ""⟩

def pending (s : Script) : Nat := s.input.length

def enqueue (s : Script) (line : String) : Script := { s with input := s.input ++ [line] }

def readLine (s : Script) : Option String × Script := (s.input.head?, { s with input := s.input.tail })

def write (s : Script) (text : String) : Script := { s with output := s.output ++ text }

def writeLine (s : Script) (text : String) : Script := (s.write text).write "\n"

def drain (s : Script) : String × Script := (s.output, { s with output := "" })

/-- No call on a scripted console fails, whatever a failure would be. -/
def console {ε : Type} : Console ε Script where
  readLine s := (.ok s.readLine.1, s.readLine.2)
  write text s := (.ok (), s.write text)

/-- What can be done with a scripted console. -/
inductive Action where
  | enqueue (line : String)
  | readLine
  | write (text : String)
  | writeLine (text : String)
  | drain
  deriving DecidableEq, Repr

/-- What an action answers. -/
inductive Reply where
  | line (line : Option String)
  | text (text : String)
  | done
  /-- There is no saved copy. -/
  | nothing
  deriving DecidableEq, Repr

def act (s : Script) : Action → Reply × Script
  | .enqueue line => (.done, s.enqueue line)
  | .readLine => (.line s.readLine.1, s.readLine.2)
  | .write text => (.done, s.write text)
  | .writeLine text => (.done, s.writeLine text)
  | .drain => (.text s.drain.1, s.drain.2)

/-- A scripted console that can be copied and put back. -/
structure Shelf where
  current : Script
  saved : Option Script := none
  deriving DecidableEq, Repr

inductive Shelf.Action where
  | act (a : Script.Action)
  | save
  | restore
  deriving DecidableEq, Repr

/-- A restored copy stays saved. -/
def Shelf.act (s : Shelf) : Shelf.Action → Reply × Shelf
  | .act a => ((s.current.act a).1, { s with current := (s.current.act a).2 })
  | .save => (.done, { s with saved := some s.current })
  | .restore =>
    match s.saved with
    | some copy => (.done, { s with current := copy })
    | none => (.nothing, s)

end Script
end ConsoleHost
