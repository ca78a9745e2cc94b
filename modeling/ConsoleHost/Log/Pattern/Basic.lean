/-! Patterns: what a directive may ask of the value of a field. No entry is inside a span, so that a
pattern is never matched; it keeps only what decides whether it can be used. -/
namespace ConsoleHost.Log

/-- The letters of the flags that are turned on and of those that are turned off. -/
structure Flags where
  turnedOn : List Char
  turnedOff : List Char
  deriving DecidableEq, Repr

namespace Flags

def unchanged : Flags := ⟨[], []⟩

/-- What becomes of a flag that was as given. -/
def apply (f : Flags) (flag : Char) (before : Bool) : Bool :=
  f.turnedOn.contains flag || (before && !f.turnedOff.contains flag)

end Flags

/-- What is written between brackets. -/
inductive CharSet where
  | empty
  | literal (c : Char)
  | range (low high : Char)
  | named (negated : Bool)
  | shorthand (negated : Bool)
  | bracket (negated : Bool) (inner : CharSet)
  | union (items : List CharSet)
  | combined (left right : CharSet)
  deriving Repr

inductive Pattern where
  | empty
  /-- A character; a byte is one that is written by a code of two digits. -/
  | literal (c : Char) (isByte : Bool)
  | any
  | anchor
  | wordEdge
  | shorthand (negated : Bool)
  | bracket (negated : Bool) (inner : CharSet)
  | flags (f : Flags)
  | repeated (p : Pattern)
  | group (f : Flags) (p : Pattern)
  | sequence (items : List Pattern)
  | alternatives (items : List Pattern)
  deriving Repr

mutual

def CharSet.depth : CharSet → Nat
  | .bracket _ s => s.depth + 1
  | .union items => depthAll items + 1
  | .combined left right => max left.depth right.depth + 1
  | _ => 0

def CharSet.depthAll : List CharSet → Nat
  | [] => 0
  | s :: items => max s.depth (depthAll items)

end

mutual

/-- How deeply the parts of a pattern are nested. -/
def Pattern.depth : Pattern → Nat
  | .bracket _ s => s.depth + 1
  | .repeated p => p.depth + 1
  | .group _ p => p.depth + 1
  | .sequence items => depthAll items + 1
  | .alternatives items => depthAll items + 1
  | _ => 0

def Pattern.depthAll : List Pattern → Nat
  | [] => 0
  | p :: items => max p.depth (depthAll items)

end

/-- Whether letters match in either case, and whether characters or bytes are matched. -/
structure Mode where
  caseless : Bool
  unicode : Bool
  deriving DecidableEq, Repr

namespace Mode

def initial : Mode := ⟨false, true⟩

def apply (m : Mode) (f : Flags) : Mode := ⟨f.apply 'i' m.caseless, f.apply 'u' m.unicode⟩

/-- Characters have no known cases, and bytes are of ASCII. -/
def allows (m : Mode) (c : Char) : Bool := if m.unicode then !m.caseless else c.toNat < 0x80

/-- Which characters make a word, are digits or white space is known of ASCII only, and what is not
one of those is no longer of ASCII. -/
def allowsShorthand (m : Mode) (negated : Bool) : Bool := !m.unicode && !negated

def allowsNegation (m : Mode) (negated : Bool) : Bool := m.unicode || !negated

end Mode

mutual

/-- Whether a set can be used in a mode. -/
def CharSet.fits (m : Mode) : CharSet → Bool
  | .empty => true
  | .literal c => m.allows c
  | .range _ high => m.allows high
  | .named negated => if m.unicode then !m.caseless else !negated
  | .shorthand negated => m.allowsShorthand negated
  | .bracket negated s => m.allowsNegation negated && s.fits m
  | .union items => fitsAll m items
  | .combined left right => left.fits m && right.fits m

def CharSet.fitsAll (m : Mode) : List CharSet → Bool
  | [] => true
  | s :: items => s.fits m && fitsAll m items

end

mutual

/-- The mode after a pattern, if it can be used in the mode before it. A group keeps its flags to
itself. -/
def Pattern.modeAfter? (m : Mode) : Pattern → Option Mode
  | .empty => some m
  | .literal c isByte => if m.allows c || (!m.unicode && !isByte) then some m else none
  | .any => if m.unicode then some m else none
  | .anchor => some m
  | .wordEdge => if m.unicode then none else some m
  | .shorthand negated => if m.allowsShorthand negated then some m else none
  | .bracket negated s => if m.allowsNegation negated && s.fits m then some m else none
  | .flags f => some (m.apply f)
  | .repeated p => p.modeAfter? m
  | .group f p => (p.modeAfter? (m.apply f)).map fun _ => m
  | .sequence items => modeAfterAll? m items
  | .alternatives items => modeAfterAll? m items

def Pattern.modeAfterAll? (m : Mode) : List Pattern → Option Mode
  | [] => some m
  | p :: items => (p.modeAfter? m).bind fun after => modeAfterAll? after items

end

namespace Pattern

/-- The deepest nesting that is taken. -/
def maxDepth : Nat := 250

def isUsable (p : Pattern) : Bool := p.depth ≤ maxDepth && (p.modeAfter? .initial).isSome

end Pattern
end ConsoleHost.Log
