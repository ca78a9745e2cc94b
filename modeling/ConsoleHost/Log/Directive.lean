import ConsoleHost.Log.Layout
import ConsoleHost.Log.Limit
import ConsoleHost.Log.Value
import ConsoleHost.Text.Utf8

/-! Directives: up to which level the entries of a target are written. -/
namespace ConsoleHost.Log

/-- What a directive asks of an entry beside its target. -/
inductive Condition where
  /-- That it has a field of this name. -/
  | field (name : String)
  /-- That it is inside a span; no entry is. -/
  | span
  deriving DecidableEq, Repr

def Condition.holds (e : Entry) : Condition → Bool
  | field name => e.fieldNames.contains name
  | span => false

/-- A limit for the entries whose target begins with a text, and that meet a condition if there is
one. The empty text is for all. -/
structure Directive where
  target : String
  condition : Option Condition
  limit : Limit
  deriving DecidableEq, Repr

namespace Directive

def governs (d : Directive) (e : Entry) : Bool :=
  d.target.isPrefixOf e.target && d.condition.all (Condition.holds e)

/-- Whether a directive counts before another that governs the same entry: the longer target does,
then a condition before none, then the later field name; and of equals this one. -/
def outranks (d other : Directive) : Bool :=
  if d.target.length == other.target.length then
    match d.condition, other.condition with
    | _, none => true
    | some (.field name), some (.field otherName) => otherName ≤ name
    | some _, some .span => true
    | _, some _ => false
  else other.target.length < d.target.length

/-- A field by its name alone, or with a value, which only a span can have. -/
def fieldCondition? (text : List Char) : Option Condition :=
  let name := text.takeWhile (· != '=')
  match text.drop name.length with
  | [] => some (.field (String.ofList name))
  | _ :: rest => if Value.isUsable (rest.takeWhile (· != '=')) then some .span else none

/-- The condition of a span and a field. -/
def condition? (hasSpan : Bool) (field : Option String) : Option (Option Condition) :=
  match field with
  | none => some (if hasSpan then some .span else none)
  | some text => (fieldCondition? text.toList).map fun c => some (if hasSpan then .span else c)

/-- A directive without a value lets all through, but one word that is a level is the limit of all
targets. -/
def ofParts? (head : String) (condition : Option Condition) (value : Option String) :
    Option Directive :=
  match condition, value with
  | none, none =>
    match Limit.parse? head.toList with
    | some limit => some ⟨"", none, limit⟩
    | none => some ⟨head, none, .all⟩
  | _, none => some ⟨head, condition, .all⟩
  | _, some value => (Limit.parseValue? value.toList).map (⟨head, condition, ·⟩)

/-- How a directive may begin. -/
def opens (c : Char) : Bool :=
  c == '[' || c == '-' || c == ':' || c == '_' || Text.isAlphanumeric c

/-- The places of the parts are those in the text without the white space around it, but are looked
up in the text as it is given: after white space each part begins that much too early. -/
def parse? (text : String) : Option Directive := do
  let written := Text.trimBlanks text.toList
  if !written.head?.any opens then none
  else
    let layout ← Layout.ofBytes? (Text.encode (String.ofList written))
    let part (p : Place) := Text.decode (p.cut (Text.encode text))
    let condition ← condition? layout.hasSpan (layout.field.map part)
    ofParts? (part layout.head) condition (layout.value.map part)

end Directive
end ConsoleHost.Log
