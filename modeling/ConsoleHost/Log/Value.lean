import ConsoleHost.Log.Pattern.Parser

/-! Values of fields in directives: a number or a pattern. -/
namespace ConsoleHost.Log.Value

def dropSign : List Char → List Char
  | '+' :: rest | '-' :: rest => rest
  | text => text

/-- Digits, with or without a point between them, and a power of ten. -/
def isDecimal (text : List Char) : Bool :=
  let whole := text.takeWhile Char.isDigit
  let rest := text.drop whole.length
  let point := rest.head? == some '.'
  let rest := if point then rest.tail else rest
  let fraction := if point then rest.takeWhile Char.isDigit else []
  let digits := whole ++ fraction
  !digits.isEmpty && match rest.drop fraction.length with
    | [] => true
    | e :: power =>
      let power := dropSign power
      (e == 'e' || e == 'E') && !power.isEmpty && power.all Char.isDigit

def isNumber (text : List Char) : Bool :=
  let text := dropSign text
  isDecimal text || ["inf", "infinity", "nan"].contains (String.ofList (text.map Char.toLower))

def isUsable (text : List Char) : Bool :=
  isNumber text || (Pattern.parse? text).any Pattern.isUsable

end ConsoleHost.Log.Value
