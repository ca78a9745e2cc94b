/-! Terminal escape sequences, and texts without them. -/
namespace ConsoleHost.Text

/-- What a text has begun and not yet ended. -/
inductive Escape where
  | closed
  /-- The escape character alone. -/
  | begun
  | intermediate
  /-- A control sequence, such as one for a colour. -/
  | control
  | device
  | deviceParameters
  | deviceIntermediate
  /-- The body of a device control or other string, which the byte `9C` ends. -/
  | body
  /-- A command to the system, such as one for a title, which a bell ends. -/
  | command
  deriving DecidableEq, Repr

/-- Tabs and the ends of lines and pages. -/
def isLayout (c : Char) : Bool := c == '\t' || c == '\n' || c == '\x0c' || c == '\r'

/-- What is shown outside of sequences: all but the other control characters of ASCII. -/
def isShown (c : Char) : Bool := isLayout c || (' ' ≤ c && c != '\x7f')

namespace Escape

/-- What is open after a character that is not shown. Cancelling ends every sequence, and an escape
character begins a new one. -/
def after (e : Escape) (c : Char) : Escape :=
  if c == '\x18' || c == '\x1a' then closed
  else if c == '\x1b' then begun
  else
    match e with
    | closed => closed
    | begun =>
      if c == 'P' then device
      else if c == '[' then control
      else if c == ']' then command
      else if c == 'X' || c == '^' || c == '_' then body
      else if ' ' ≤ c && c ≤ '/' then intermediate
      else if '0' ≤ c && c ≤ '~' then closed
      else begun
    | intermediate => if '0' ≤ c && c ≤ '~' then closed else intermediate
    | control => if '@' ≤ c && c ≤ '~' then closed else control
    | device =>
      if ' ' ≤ c && c ≤ '/' then deviceIntermediate
      else if '0' ≤ c && c ≤ '?' then deviceParameters
      else if '@' ≤ c && c ≤ '~' then body
      else device
    | deviceParameters =>
      if ' ' ≤ c && c ≤ '/' then deviceIntermediate
      else if '<' ≤ c && c ≤ '~' then body
      else deviceParameters
    | deviceIntermediate => if '0' ≤ c && c ≤ '~' then body else deviceIntermediate
    | body => if (String.utf8EncodeChar c).contains 0x9C then closed else body
    | command => if c == '\x07' then closed else command

/-- Layout characters are obeyed also inside a short sequence. -/
def shows (e : Escape) (c : Char) : Bool :=
  match e with
  | closed => isShown c
  | begun | intermediate | control => isLayout c
  | _ => false

end Escape

/-- What is shown of a text, given whether the character before it was shown. A text that is being
shown goes on even where a layout character has come inside a sequence; its first character beyond
ASCII ends the sequence. -/
def shownFrom : Bool → Escape → List Char → List Char
  | _, _, [] => []
  | flowing, e, c :: cs =>
    if flowing && isShown c || e.shows c then
      c :: shownFrom true (if c < '\x80' then e else .closed) cs
    else shownFrom false (e.after c) cs

/-- The text without escape sequences and control characters. -/
def plain (s : String) : String := String.ofList (shownFrom false .closed s.toList)

end ConsoleHost.Text
