import ConsoleHost.Host.Operation
import ConsoleHost.Memory.Store

/-! Serving the calls of a guest: the operation on its published memory. -/
namespace ConsoleHost.HostCall

/-- The greatest length that a guest's signed integer holds. -/
def maxLength : Nat := 0x7FFFFFFF

/-- The length of a line as a guest's integer. -/
def lineLength (n : Nat) : Int32 := .ofNat (min n maxLength)

/-- What a served call gives: its result if it has one, and the store after it. -/
abbrev Served := Except HostError (Option Int32 × Store)

/-- An operation that needs no memory and changes none. -/
def onConsole (s : Store) (d : Dialogue Unit) : Dialogue Served :=
  d.bind fun _ => .done (.ok (none, s))

/-- An operation on the bytes of a window of the published memory. -/
def onBytes (s : Store) (w : Window) (f : List UInt8 → Dialogue Unit) : Dialogue Served :=
  match s.memory with
  | .error e => .done (.error e)
  | .ok (_, m) =>
    match m.slice w with
    | .error e => .done (.error e)
    | .ok bytes => onConsole s (f bytes)

/-- The window is resolved before a line is read, so that a bad one takes no line. -/
def readInto (s : Store) (w : Window) : Dialogue Served :=
  match s.memory with
  | .error e => .done (.error e)
  | .ok (k, m) =>
    match w.check m.size with
    | .error e => .done (.error e)
    | .ok _ =>
      (Host.readln w.len.toNat).bind fun (length, copied) =>
        .done (.ok (some (lineLength length), s.modify k fun m => m.write w.offset.toNat copied))

/-- Notes a call in the log and serves it. -/
def serve (s : Store) (call : HostCall) : Dialogue Served :=
  .note (.called call) fun _ =>
    match call with
    | readln offset maxLen => readInto s (.ofGuest offset maxLen)
    | print offset len => onBytes s (.ofGuest offset len) Host.print
    | println offset len => onBytes s (.ofGuest offset len) Host.println
    | ln => onConsole s Host.ln
    | printInt value => onConsole s (Host.printInt value)
    | printlnInt value => onConsole s (Host.printlnInt value)
    | printReal value => onConsole s (Host.printReal value)
    | printlnReal value => onConsole s (Host.printlnReal value)
    | printIntPad value width => onConsole s (Host.printIntPad value width)
    | printRealPad value width => onConsole s (Host.printRealPad value width)

end ConsoleHost.HostCall
