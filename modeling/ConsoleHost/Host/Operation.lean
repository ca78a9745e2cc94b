import ConsoleHost.Field
import ConsoleHost.Text.Utf8

/-! The console operations behind the host functions, as dialogues on plain bytes and numbers. -/
namespace ConsoleHost.Host

/-- Reads a line and gives its length in bytes, and as many of its first bytes as there is room
for. At the end of input the line is empty. -/
def readln (room : Nat) : Dialogue (Nat × List UInt8) :=
  Dialogue.ask.bind fun line =>
    let bytes := Text.encode (line.getD "")
    .done (bytes.length, bytes.take room)

def ln : Dialogue Unit := .say "\n"

/-- Writes a text and then a newline of its own. -/
def line (text : String) : Dialogue Unit := (Dialogue.say text).bind fun _ => ln

def print (bytes : List UInt8) : Dialogue Unit := .say (Text.decode bytes)

def println (bytes : List UInt8) : Dialogue Unit := line (Text.decode bytes)

def printInt (value : Int32) : Dialogue Unit := .say (intText value)

def printlnInt (value : Int32) : Dialogue Unit := line (intText value)

def printReal (value : Double) : Dialogue Unit := .say (realText value)

def printlnReal (value : Double) : Dialogue Unit := line (realText value)

def printIntPad (value width : Int32) : Dialogue Unit := Field.write (intText value) width

def printRealPad (value : Double) (width : Int32) : Dialogue Unit :=
  Field.write (realText value) width

/-- An operation with its arguments. -/
inductive Operation where
  | readln (buffer : List UInt8)
  | print (bytes : List UInt8)
  | println (bytes : List UInt8)
  | ln
  | printInt (value : Int32)
  | printlnInt (value : Int32)
  | printReal (value : Double)
  | printlnReal (value : Double)
  | printIntPad (value width : Int32)
  | printRealPad (value : Double) (width : Int32)
  deriving DecidableEq, Repr

/-- What an operation answers: nothing, or the length of the line and the buffer it was put in. -/
inductive Reply where
  | none
  | line (length : Nat) (buffer : List UInt8)
  deriving DecidableEq, Repr

namespace Operation

private def silent (d : Dialogue Unit) : Dialogue Reply := d.bind fun _ => .done .none

/-- A line that is shorter than the buffer leaves the rest of it as it was. -/
def perform : Operation → Dialogue Reply
  | readln buffer =>
    (Host.readln buffer.length).bind fun (length, copied) =>
      .done (.line length (copied ++ buffer.drop copied.length))
  | print bytes => silent (Host.print bytes)
  | println bytes => silent (Host.println bytes)
  | ln => silent Host.ln
  | printInt value => silent (Host.printInt value)
  | printlnInt value => silent (Host.printlnInt value)
  | printReal value => silent (Host.printReal value)
  | printlnReal value => silent (Host.printlnReal value)
  | printIntPad value width => silent (Host.printIntPad value width)
  | printRealPad value width => silent (Host.printRealPad value width)

end Operation
end ConsoleHost.Host
