import ConsoleHost.Decimal.Layout
import ConsoleHost.Guest.Error
import ConsoleHost.Host.Function

/-! Log entries: what is noted while a module is loaded and run. -/
namespace ConsoleHost.Log

/-- How important an entry is, the most important first. -/
inductive Level where
  | error
  | warn
  | info
  | debug
  | trace
  deriving DecidableEq, Repr

def Level.name : Level → String
  | error => "ERROR"
  | warn => "WARN"
  | info => "INFO"
  | debug => "DEBUG"
  | trace => "TRACE"

def Level.rank : Level → Nat
  | error => 1
  | warn => 2
  | info => 3
  | debug => 4
  | trace => 5

inductive Entry where
  | readingModule (path : String)
  /-- The number of bytes, where it is known. -/
  | compilingModule (bytes : Option Nat)
  | instantiating
  | published (pages : Nat)
  | running (entryPoint : String)
  | finished
  | called (call : HostCall)
  | endOfInput
  | failed (kind : FailureKind)
  deriving DecidableEq, Repr

namespace Entry

def level : Entry → Level
  | called _ => .trace
  | running _ | finished => .info
  | _ => .debug

/-- The part of the program that an entry comes from; log filters select by it. -/
def target : Entry → String
  | called _ => "stdhost_runner::linker"
  | endOfInput => "stdhost_hostapi::std_console"
  | failed _ => "stdhost"
  | _ => "stdhost_runner::runtime"

/-- The arguments of a call, each with its name. -/
def arguments : HostCall → List (String × String)
  | .readln offset maxLen => [("offset", intText offset), ("max_len", intText maxLen)]
  | .print offset len | .println offset len => [("offset", intText offset), ("len", intText len)]
  | .ln => []
  | .printInt value | .printlnInt value => [("value", intText value)]
  | .printReal value | .printlnReal value => [("value", Layout.logged.real value)]
  | .printIntPad value width => [("value", intText value), ("width", intText width)]
  | .printRealPad value width =>
    [("value", Layout.logged.real value), ("width", intText width)]

/-- What happened, and its named details. -/
def content : Entry → String × List (String × String)
  | readingModule path => ("reading module", [("path", path)])
  | compilingModule bytes => ("compiling module", [("bytes", (bytes.map toString).getD "_")])
  | instantiating => ("instantiating module", [])
  | published pages => ("published guest memory", [("pages", toString pages)])
  | running entryPoint => ("running guest", [("entry", entryPoint)])
  | finished => ("guest finished", [])
  | called call =>
    (HostFunction.namespaceName ++ "::" ++ call.function.name, arguments call)
  | endOfInput => ("standard input reached end of file", [])
  | failed kind => ("run failed", [("kind", kind.name)])

/-- The names of the details; what happened is a detail too. -/
def fieldNames (e : Entry) : List String := "message" :: e.content.2.map (·.1)

/-- One line: the level, what happened, and the details. -/
def line (e : Entry) : String :=
  e.content.2.foldl (fun text field => text ++ " " ++ field.1 ++ "=" ++ field.2)
    (e.level.name ++ " " ++ e.content.1) ++ "\n"

end Entry
end ConsoleHost.Log
