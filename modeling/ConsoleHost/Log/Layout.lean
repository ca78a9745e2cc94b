/-! Layouts: where the parts of a directive stand. Places are counted in bytes. -/
namespace ConsoleHost.Log

/-- A part of a text from an offset in bytes, up to another or to the end. -/
inductive Place where
  | between (start stop : Nat)
  | after (start : Nat)
  deriving DecidableEq, Repr

def Place.cut (bytes : List UInt8) : Place → List UInt8
  | .between start stop => (bytes.drop start).take (stop - start)
  | .after start => bytes.drop start

/-- What comes first, whether the brackets name a span, the field in braces between them, and what
follows the equals sign. -/
structure Layout where
  head : Place
  hasSpan : Bool
  field : Option Place
  value : Option Place
  deriving DecidableEq, Repr

namespace Layout

/-- What stands after a closing bracket that ends at the offset: nothing, or an equals sign. -/
def value? (offset : Nat) : List UInt8 → Option (Option Place)
  | [] => some none
  | b :: _ => if b == '='.toUInt8 then some (some (.after (offset + 1))) else none

/-- What stands after an opening bracket that ends at the offset. A field is not empty. -/
def bracket? (head : Place) (offset : Nat) (bytes : List UInt8) : Option Layout := do
  let name := bytes.takeWhile fun b => b != ']'.toUInt8 && b != '\x7b'.toUInt8
  match bytes.drop name.length with
  | [] => none
  | b :: rest =>
    if b == ']'.toUInt8 then return ⟨head, true, none, ← value? (offset + name.length + 1) rest⟩
    else
      let offset := offset + name.length + 1
      let text := rest.takeWhile (· != '\x7d'.toUInt8)
      let field := Place.between offset (offset + text.length)
      match rest.drop text.length with
      | _ :: b :: rest =>
        if text.isEmpty || b != ']'.toUInt8 then none
        else
          return ⟨head, !name.isEmpty, some field, ← value? (offset + text.length + 2) rest⟩
      | _ => none

/-- A text without brackets and without an equals sign goes to its end. -/
def ofBytes? (bytes : List UInt8) : Option Layout :=
  let text := bytes.takeWhile fun b => b != '='.toUInt8 && b != '['.toUInt8
  let head := Place.between 0 text.length
  match bytes.drop text.length with
  | [] => some ⟨.after 0, false, none, none⟩
  | b :: rest =>
    if b == '='.toUInt8 then some ⟨head, false, none, some (.after (text.length + 1))⟩
    else bracket? head (text.length + 1) rest

end Layout
end ConsoleHost.Log
