import ConsoleHost.Decimal.Shortest

/-! The text of numbers: where the point and the zeros go, and when an exponent is written. -/
namespace ConsoleHost

/-- How reals are written. A number `0.ddd * 10 ^ point` is positional if
`lowest < point ≤ highest`. -/
structure Layout where
  lowest : Int
  highest : Int
  /-- What an integer written positionally ends in. -/
  wholeSuffix : String
  /-- What stands before an exponent that is not negative. -/
  plus : String
  nan : String
  infinity : String
  zero : String
  /-- Whether a zero keeps its sign. -/
  signedZero : Bool
  deriving DecidableEq, Repr

/-- Reals as the guest prints them: positional from one millionth to below `10 ^ 21`, integers
without a point, one zero. -/
def Layout.printed : Layout where
  lowest := -6
  highest := 21
  wholeSuffix := ""
  plus := "+"
  nan := "NaN"
  infinity := "Infinity"
  zero := "0"
  signedZero := false

/-- Reals in log lines: positional from one ten-thousandth to below `10 ^ 16`, always with a
point. -/
def Layout.logged : Layout where
  lowest := -4
  highest := 16
  wholeSuffix := ".0"
  plus := ""
  nan := "NaN"
  infinity := "inf"
  zero := "0.0"
  signedZero := true

namespace Layout

def zeros (n : Int) : String := String.ofList (List.replicate n.toNat '0')

/-- A positive decimal whose point stands `point` places after the start of its digits. -/
def positional (l : Layout) (digits : List Char) (point : Int) : String :=
  if point ≤ 0 then "0." ++ zeros (-point) ++ String.ofList digits
  else if digits.length ≤ point then
    String.ofList digits ++ zeros (point - digits.length) ++ l.wholeSuffix
  else
    String.ofList (digits.take point.toNat) ++ "." ++ String.ofList (digits.drop point.toNat)

/-- One digit, the others after a point, and the power of ten. -/
def scientific (l : Layout) (digits : List Char) (exponent : Int) : String :=
  let fraction := digits.drop 1
  String.ofList (digits.take 1) ++
    (if fraction.isEmpty then "" else "." ++ String.ofList fraction) ++
    "e" ++ (if exponent < 0 then "-" else l.plus) ++ toString exponent.natAbs

/-- The text of a positive decimal. -/
def decimal (l : Layout) (d : Decimal) : String :=
  let digits := (toString d.digits).toList
  let point := digits.length + d.exponent
  if l.lowest < point ∧ point ≤ l.highest then l.positional digits point
  else l.scientific digits (point - 1)

/-- The text of any double. -/
def real (l : Layout) (x : Double) : String :=
  let sign := if x.negative then "-" else ""
  match x.magnitude with
  | .nan => l.nan
  | .infinite => sign ++ l.infinity
  | .finite 0 _ => (if l.signedZero then sign else "") ++ l.zero
  | .finite m q => sign ++ l.decimal (Interval.around m q).shortest

end Layout

/-- The text of a real. -/
def realText (x : Double) : String := Layout.printed.real x

/-- The text of an integer in base ten. -/
def intText (n : Int32) : String := toString n.toInt

end ConsoleHost
