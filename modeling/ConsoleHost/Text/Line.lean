/-! Lines: cutting bytes after a newline, and taking the newline off a text. -/
namespace ConsoleHost.Text

/-- The text without one final `"\n"` or `"\r\n"`. -/
def chomp (s : String) : String :=
  match s.toList.reverse with
  | '\n' :: '\r' :: r => String.ofList r.reverse
  | '\n' :: r => String.ofList r.reverse
  | _ => s

def isNewline (b : UInt8) : Bool := b == 0x0A

/-- The bytes up to and including the first newline, and those after it. -/
def cutLine (bytes : List UInt8) : List UInt8 × List UInt8 :=
  match bytes.dropWhile (!isNewline ·) with
  | newline :: rest => (bytes.takeWhile (!isNewline ·) ++ [newline], rest)
  | [] => (bytes, [])

end ConsoleHost.Text
