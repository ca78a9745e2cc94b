import ConsoleHost.Double.Basic

/-! The shortest decimal that reads back as a given double, found in exact arithmetic by going
through the decimal grids from coarse to fine. -/
namespace ConsoleHost

/-- The number `digits * 10 ^ exponent`. -/
structure Decimal where
  digits : Nat
  exponent : Int
  deriving DecidableEq, Repr

/-- The reals that round to one positive double, which is `mid`: they lie between `low` and `high`,
all three counted in units of `2 ^ exponent`. The ends belong to it if `closed`. -/
structure Interval where
  low : Nat
  mid : Nat
  high : Nat
  exponent : Int
  closed : Bool
  deriving DecidableEq, Repr

/-- Half a unit to either side, but only a quarter below a power of two, where the doubles are
twice as dense. A tie goes to the even significand, so the ends of an even one round to it. -/
def Interval.around (m : Nat) (q : Int) : Interval where
  low := if m = Double.leadingOne ∧ -1074 < q then 4 * m - 1 else 4 * m - 2
  mid := 4 * m
  high := 4 * m + 2
  exponent := q - 2
  closed := m % 2 == 0

namespace Interval

/-- `n * 2 ^ exponent` as a whole number, on the scale on which `unit p` is `10 ^ p`. -/
def scaled (i : Interval) (p : Int) (n : Nat) : Nat :=
  n * (Nat.pow 2 i.exponent.toNat * Nat.pow 10 (-p).toNat)

/-- `10 ^ p` as a whole number, on the scale of `scaled`. -/
def unit (i : Interval) (p : Int) : Nat :=
  Nat.pow 2 (-i.exponent).toNat * Nat.pow 10 p.toNat

/-- Whether `c * 10 ^ p` lies in the interval. -/
def has (i : Interval) (p : Int) (c : Nat) : Bool :=
  let d := c * i.unit p
  if i.closed then decide (i.scaled p i.low ≤ d ∧ d ≤ i.scaled p i.high)
  else decide (i.scaled p i.low < d ∧ d < i.scaled p i.high)

/-- The nearer of the two neighbours of `mid` on the grid of `10 ^ p`, if it lies in the interval;
of two at the same distance the upper one. -/
def nearest? (i : Interval) (p : Int) : Option Nat :=
  let below := i.scaled p i.mid / i.unit p
  let above := below + 1
  match i.has p below, i.has p above with
  | true, true =>
    if 2 * i.scaled p i.mid < (below + above) * i.unit p then some below else some above
  | true, false => some below
  | false, true => some above
  | false, false => none

/-- A power of ten above every number of the interval: a third of the binary digits suffices going
up, a quarter going down. -/
def top (i : Interval) : Int :=
  let twos := i.exponent + i.high.log2 + 1
  if 0 ≤ twos then twos / 3 + 1 else twos / 4 + 1

/-- More grids than lie between `top` and the seventeenth digit of any double. -/
def grids : Nat := 100

/-- The first grid that has a point in the interval gives the fewest digits. -/
def shortest (i : Interval) : Decimal :=
  ((List.range grids).findSome? fun (k : Nat) =>
    (i.nearest? (i.top - k)).map (⟨·, i.top - k⟩)).getD ⟨i.mid, 0⟩

end Interval
end ConsoleHost
