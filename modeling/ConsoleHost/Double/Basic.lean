/-! Reals as the bit patterns of binary64: sign, significand and exponent read off the bits. -/
namespace ConsoleHost

/-- A binary64 number, kept as its 64 bits. -/
structure Double where
  bits : UInt64
  deriving DecidableEq, Repr

/-- A double without its sign; a finite one is `m * 2 ^ q`. -/
inductive Magnitude where
  | nan
  | infinite
  | finite (m : Nat) (q : Int)
  deriving DecidableEq, Repr

namespace Double

/-- The value of the sign bit: `2 ^ 63`. -/
def signWeight : Nat := 0x8000000000000000

/-- The value of the lowest bit of the exponent, and of the leading one of a significand:
`2 ^ 52`. -/
def leadingOne : Nat := 0x10000000000000

def negative (x : Double) : Bool := x.bits.toNat / signWeight == 1

def exponentField (x : Double) : Nat := x.bits.toNat / leadingOne % 2048

def fraction (x : Double) : Nat := x.bits.toNat % leadingOne

/-- The significand has a leading one unless the exponent field is zero. -/
def magnitude (x : Double) : Magnitude :=
  if x.exponentField = 2047 then
    if x.fraction = 0 then .infinite else .nan
  else if x.exponentField = 0 then .finite x.fraction (-1074)
  else .finite (leadingOne + x.fraction) (x.exponentField - 1075)

theorem fraction_lt (x : Double) : x.fraction < leadingOne := Nat.mod_lt _ (by decide)

theorem exponentField_lt (x : Double) : x.exponentField < 2048 := Nat.mod_lt _ (by decide)

def isNaN (x : Double) : Bool := x.magnitude == .nan

/-- The double equal to an integer of at most 53 bits. -/
def ofInt (n : Int) : Double :=
  if n = 0 then ⟨0⟩
  else
    let top := n.natAbs.log2
    let significand := n.natAbs * Nat.pow 2 (52 - top)
    let sign := if n < 0 then signWeight else 0
    ⟨.ofNat (sign + (top + 1022) * leadingOne + significand)⟩

end Double
end ConsoleHost
