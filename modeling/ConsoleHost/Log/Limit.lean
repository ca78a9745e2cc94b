import ConsoleHost.Log.Entry

/-! Limits: a level, or none at all, as the most that is written of a target. -/
namespace ConsoleHost.Log

/-- Up to which level entries are written; zero is none at all. -/
structure Limit where
  rank : Nat
  deriving DecidableEq, Repr

namespace Limit

def ofLevel (l : Level) : Limit := ⟨l.rank⟩

def all : Limit := ofLevel .trace

/-- A number of one digit after any zeros, and after a plus sign if there is one. -/
def ofNumber? (text : List Char) : Option Limit :=
  let digits := if text.head? == some '+' then text.tail else text
  if digits.isEmpty || !digits.all Char.isDigit then none
  else
    match digits.dropWhile (· == '0') with
    | [] => some ⟨0⟩
    | [d] => if d ≤ '5' then some ⟨d.toNat - '0'.toNat⟩ else none
    | _ => none

/-- A level or `off`, in capital or small letters. -/
def ofWord? (text : List Char) : Option Limit :=
  match String.ofList (text.map Char.toLower) with
  | "off" => some ⟨0⟩
  | "error" => some (ofLevel .error)
  | "warn" => some (ofLevel .warn)
  | "info" => some (ofLevel .info)
  | "debug" => some (ofLevel .debug)
  | "trace" => some (ofLevel .trace)
  | _ => none

def parse? (text : List Char) : Option Limit := ofNumber? text <|> ofWord? text

/-- What is written after an equals sign; nothing there lets all through. -/
def parseValue? (text : List Char) : Option Limit := if text.isEmpty then some all else parse? text

end Limit
end ConsoleHost.Log
