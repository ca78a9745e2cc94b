import ConsoleHost.Double.Basic

/-! The four operations on doubles, with a definite bit pattern for every NaN. -/
namespace ConsoleHost

inductive RealOp where
  | add
  | sub
  | mul
  | div
  deriving DecidableEq, Repr

def RealOp.onFloat : RealOp → Float → Float → Float
  | .add, x, y => x + y
  | .sub, x, y => x - y
  | .mul, x, y => x * y
  | .div, x, y => x / y

namespace Double

/-- What an invalid operation on numbers gives. -/
def invalid : Double := ⟨0xFFF8000000000000⟩

/-- A NaN with its quiet bit set. -/
def quiet (x : Double) : Double := ⟨x.bits ||| 0x0008000000000000⟩

/-- The first operand that is a NaN is the result, made quiet; otherwise the rounded result. -/
def apply (op : RealOp) (x y : Double) : Double :=
  if x.isNaN then x.quiet
  else if y.isNaN then y.quiet
  else
    let r : Double := ⟨(op.onFloat (Float.ofBits x.bits) (Float.ofBits y.bits)).toBits⟩
    if r.isNaN then invalid else r

end Double
end ConsoleHost
