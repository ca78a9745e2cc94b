import ConsoleHost.Log.Pattern.Basic
import ConsoleHost.Text.Alphanumeric
import ConsoleHost.Text.Blank

/-! Reading patterns. The text of a value ends before its first closing brace, so that what would be
written in braces, such as a count, is always unfinished. -/
namespace ConsoleHost.Log

/-- Items in reverse order. -/
def CharSet.ofReversed : List CharSet → CharSet
  | [] => .empty
  | [s] => s
  | items => .union items.reverse

/-- What stands before an operator, if there is one, and after it. -/
def CharSet.combine (left : Option CharSet) (right : CharSet) : CharSet :=
  match left with
  | none => right
  | some left => .combined left right

namespace Pattern

/-- The items of a sequence in reverse order. -/
def ofReversed : List Pattern → Pattern
  | [] => .empty
  | [p] => p
  | items => .sequence items.reverse

/-- One or more alternatives in reverse order. -/
def ofAlternatives : List Pattern → Pattern
  | [p] => p
  | items => .alternatives items.reverse

/-- The text that is still to be read, whether white space in it stands for nothing, and the names
that groups have. -/
structure Reader where
  rest : List Char
  spaced : Bool
  names : List (List Char)
  deriving DecidableEq, Repr

/-- The text after white space and comments, which go from a hash to the end of the line. -/
def skipSpace (inComment : Bool) : List Char → List Char
  | [] => []
  | c :: rest =>
    if inComment then skipSpace (c != '\n') rest
    else if Text.isBlank c then skipSpace false rest
    else if c == '#' then skipSpace true rest
    else c :: rest

/-- The value of a hexadecimal digit. -/
def hexDigit? (c : Char) : Option Nat :=
  if c.isDigit then some (c.toNat - '0'.toNat)
  else if 'a' ≤ c ∧ c ≤ 'f' then some (c.toNat - 'a'.toNat + 10)
  else if 'A' ≤ c ∧ c ≤ 'F' then some (c.toNat - 'A'.toNat + 10)
  else none

/-- The names that may stand between colons in a set. -/
def setNames : List String :=
  ["alnum", "alpha", "ascii", "blank", "cntrl", "digit", "graph", "lower", "print", "punct",
   "space", "upper", "word", "xdigit"]

/-- A named set after its opening bracket. -/
def namedSet? : List Char → Option (CharSet × List Char)
  | ':' :: text =>
    let negated := text.head? == some '^'
    let text := if negated then text.tail else text
    let name := text.takeWhile (· != ':')
    match text.drop name.length with
    | ':' :: ']' :: rest =>
      if setNames.contains (String.ofList name) then some (.named negated, rest) else none
    | _ => none
  | _ => none

/-- Flags by their letters, each at most once; those after a hyphen are turned off. -/
def flags? (text : List Char) : Option Flags :=
  let turnedOn := text.takeWhile (· != '-')
  let turnedOff := (text.drop turnedOn.length).tail
  let letters := turnedOn ++ turnedOff
  if letters.all "imsUuRx".toList.contains && letters.Nodup && text.getLast? != some '-' then
    some ⟨turnedOn, turnedOff⟩
  else none

def isGroupName : List Char → Bool
  | [] => false
  | first :: rest =>
    (first == '_' || Text.isAlphabetic first)
      && rest.all fun c => "_.[]".toList.contains c || Text.isAlphanumeric c

/-- What an opening parenthesis begins. -/
inductive Opening where
  /-- Flags alone, for the rest of the group around them. -/
  | flags (f : Flags)
  | group (f : Flags)
  deriving DecidableEq, Repr

namespace Reader

def skip (r : Reader) : Reader := if r.spaced then { r with rest := skipSpace false r.rest } else r

def apply (r : Reader) (f : Flags) : Reader := { r with spaced := f.apply 'x' r.spaced }

/-- A number of so many hexadecimal digits, after those that have been read. -/
def code? : Nat → Nat → Reader → Option (Nat × Reader)
  | 0, value, r => some (value, r)
  | digits + 1, value, r =>
    match r.skip.rest with
    | [] => none
    | c :: rest => (hexDigit? c).bind fun d => code? digits (16 * value + d) { r with rest }

/-- A character by its code. -/
def coded? (r : Reader) (digits : Nat) : Option (Pattern × Reader) :=
  (r.code? digits 0).bind fun (value, r) =>
    if value.isValidChar then some (.literal (Char.ofNat value) (digits == 2), r) else none

/-- What follows a backslash. -/
def escape? (r : Reader) : Option (Pattern × Reader) :=
  match r.rest with
  | [] => none
  | c :: rest =>
    let r := { r with rest }
    let literal (code : Nat) := some (Pattern.literal (Char.ofNat code) false, r)
    match c with
    | 'x' => r.coded? 2
    | 'u' => r.coded? 4
    | 'U' => r.coded? 8
    | 'd' | 's' | 'w' => some (.shorthand false, r)
    | 'D' | 'S' | 'W' => some (.shorthand true, r)
    | 'A' | 'z' => some (.anchor, r)
    | 'b' | 'B' | '<' | '>' => some (.wordEdge, r)
    | 'a' => literal 0x07
    | 't' => literal 0x09
    | 'n' => literal 0x0A
    | 'v' => literal 0x0B
    | 'f' => literal 0x0C
    | 'r' => literal 0x0D
    | _ => if c.toNat < 0x80 && !c.isAlphanum then literal c.toNat else none

/-- A character or a shorthand between brackets. -/
def element? (r : Reader) : Option (CharSet × Reader) :=
  match r.rest with
  | [] => none
  | '\\' :: rest =>
    match { r with rest }.escape? with
    | some (.literal c _, r) => some (.literal c, r)
    | some (.shorthand negated, r) => some (.shorthand negated, r)
    | _ => none
  | c :: rest => some (.literal c, { r with rest })

/-- What stands after a hyphen. With white space that stands for nothing, one hash goes with it;
where nothing else is left, it stands for itself. -/
def afterHyphen? (r : Reader) (rest : List Char) : Option Char :=
  if r.spaced then
    let text := rest.dropWhile Text.isBlank
    let text := if text.head? == some '#' then text.tail.dropWhile Text.isBlank else text
    text.head? <|> rest.head?
  else rest.head?

/-- Whether a hyphen stands here that makes a range. -/
def atRange (r : Reader) : Bool :=
  match r.rest with
  | '-' :: rest => r.afterHyphen? rest != some ']' && r.afterHyphen? rest != some '-'
  | _ => false

/-- An element or a range between brackets. -/
def item? (r : Reader) : Option (CharSet × Reader) := do
  let (first, r) ← r.element?
  let r := r.skip
  if r.atRange then
    let (last, r) ← { r with rest := r.rest.tail }.skip.element?
    match first, last with
    | .literal low, .literal high => if low ≤ high then some (.range low high, r) else none
    | _, _ => none
  else some (first, r)

/-- A circumflex after an opening bracket. -/
def negation (r : Reader) : Bool × Reader :=
  match r.skip.rest with
  | '^' :: rest => (true, { r with rest })
  | _ => (false, r)

/-- The items up to the closing bracket, after what stands before the last operator and the items
since then. Hyphens at the start, and a closing bracket as the first item, stand for themselves. -/
def set? : Nat → Reader → Bool → Option CharSet → List CharSet → Option (CharSet × Reader)
  | 0, _, _, _, _ => none
  | fuel + 1, r, atStart, left, items =>
    let r := r.skip
    let go (rest : List Char) (s : CharSet) := set? fuel { r with rest } false left (s :: items)
    match r.rest with
    | [] => none
    | c :: rest =>
      if atStart && c == '-' then set? fuel { r with rest } true left (.literal '-' :: items)
      else if atStart && c == ']' && items.isEmpty then go rest (.literal ']')
      else if c == ']' then some (.combine left (.ofReversed items), { r with rest })
      else if ['&', '-', '~'].contains c && rest.head? == some c then
        set? fuel { r with rest := rest.tail } false (some (.combine left (.ofReversed items))) []
      else if c == '[' then
        match namedSet? rest with
        | some (s, rest) => go rest s
        | none => do
          let (negated, r) := { r with rest }.negation
          let (s, r) ← set? fuel r true none []
          set? fuel r false left (.bracket negated s :: items)
      else do
        let (s, r) ← r.item?
        set? fuel r false left (s :: items)

/-- A group's name up to the closing angle bracket. No two groups have the same name. -/
def named? (r : Reader) (text : List Char) : Option (Opening × Reader) :=
  let name := text.takeWhile (· != '>')
  match text.drop name.length with
  | [] => none
  | _ :: rest =>
    if isGroupName name && !r.names.contains name then
      some (.group .unchanged, { r with rest, names := name :: r.names })
    else none

/-- What follows an opening parenthesis. -/
def opening? (r : Reader) : Option (Opening × Reader) :=
  match r.rest with
  | '?' :: 'P' :: '<' :: text => r.named? text
  | '?' :: '<' :: text => r.named? text
  | '?' :: text =>
    let letters := text.takeWhile fun c => c != ':' && c != ')'
    match flags? letters, text.drop letters.length with
    | some f, ':' :: rest => some (.group f, { r with rest })
    | some f, ')' :: rest => if letters.isEmpty then none else some (.flags f, { r with rest })
    | _, _ => none
  | _ => some (.group .unchanged, r)

/-- The alternatives up to a closing parenthesis or the end, after those that have been read and the
items since then. -/
def alternatives? : Nat → Reader → List Pattern → List Pattern → Option (Pattern × Reader)
  | 0, _, _, _ => none
  | fuel + 1, r, before, items =>
    let r := r.skip
    match r.rest with
    | [] => some (.ofAlternatives (.ofReversed items :: before), r)
    | c :: rest =>
      let next := { r with rest }
      let go (p : Pattern) := alternatives? fuel next before (p :: items)
      match c with
      | ')' => some (.ofAlternatives (.ofReversed items :: before), r)
      | '|' => alternatives? fuel next (.ofReversed items :: before) []
      | '(' => do
        match ← next.skip.opening? with
        | (.flags f, r) => alternatives? fuel (r.apply f) before (.flags f :: items)
        | (.group f, inner) =>
          let (p, inner) ← alternatives? fuel (inner.apply f) [] []
          match inner.rest with
          | [] => none
          | _ :: rest =>
            alternatives? fuel { inner with rest, spaced := r.spaced } before (.group f p :: items)
      | '[' => do
        let (negated, r) := next.negation
        let (s, r) ← set? fuel r true none []
        alternatives? fuel r before (.bracket negated s :: items)
      | '*' | '+' | '?' =>
        match items with
        | [] | .flags _ :: _ => none
        | p :: items =>
          let rest := if rest.head? == some '?' then rest.tail else rest
          alternatives? fuel { r with rest } before (.repeated p :: items)
      | '\\' => do
        let (p, r) ← next.escape?
        alternatives? fuel r before (p :: items)
      | '\x7b' => none
      | '.' => go .any
      | '^' | '$' => go .anchor
      | _ => go (.literal c false)

end Reader

/-- Each step reads a character, so that one more step than characters is enough. -/
def parse? (text : List Char) : Option Pattern := do
  let (p, r) ← Reader.alternatives? (text.length + 1) ⟨text, false, []⟩ [] []
  if r.rest.isEmpty then some p else none

end Pattern
end ConsoleHost.Log
