import ConsoleHost.Host.Error
import ConsoleHost.Memory.Basic

/-! Windows: the ranges of memory that guests name by an offset and a length. -/
namespace ConsoleHost

structure Window where
  offset : UInt32
  len : UInt32
  deriving DecidableEq, Repr

namespace Window

/-- A guest's integers, read without a sign. -/
def ofGuest (offset len : Int32) : Window := ⟨offset.toUInt32, len.toUInt32⟩

def isEmpty (w : Window) : Bool := w.len == 0

/-- The end is computed without a bound, so that it cannot wrap around. -/
def Fits (w : Window) (size : Nat) : Prop := w.offset.toNat + w.len.toNat ≤ size

instance (w : Window) (size : Nat) : Decidable (w.Fits size) :=
  inferInstanceAs (Decidable (_ ≤ _))

def check (w : Window) (size : Nat) : Except HostError Unit :=
  if w.Fits size then .ok () else .error (.outOfBounds w.offset w.len size)

end Window

namespace Memory

/-- The bytes of a window. -/
def slice (m : Memory) (w : Window) : Except HostError (List UInt8) := do
  w.check m.size
  return m.read w.offset.toNat w.len.toNat

/-- Writes bytes at the start of a window, as many as it holds. -/
def splice (m : Memory) (w : Window) (bytes : List UInt8) : Except HostError Memory := do
  w.check m.size
  return m.write w.offset.toNat (bytes.take w.len.toNat)

/-- Writes the same byte all over a window. -/
def fill (m : Memory) (w : Window) (b : UInt8) : Except HostError Memory := do
  let old ← m.slice w
  m.splice w (old.map fun _ => b)

variable {m : Memory} {w : Window} {bytes : List UInt8}

theorem slice_of_fits (h : w.Fits m.size) :
    m.slice w = .ok (m.read w.offset.toNat w.len.toNat) := by
  simp [slice, Window.check, h, bind, Except.bind, pure, Except.pure]

theorem slice_of_not_fits (h : ¬ w.Fits m.size) :
    m.slice w = .error (.outOfBounds w.offset w.len m.size) := by
  simp [slice, Window.check, h, bind, Except.bind]

theorem splice_of_fits (h : w.Fits m.size) :
    m.splice w bytes = .ok (m.write w.offset.toNat (bytes.take w.len.toNat)) := by
  simp [splice, Window.check, h, bind, Except.bind, pure, Except.pure]

theorem splice_of_not_fits (h : ¬ w.Fits m.size) :
    m.splice w bytes = .error (.outOfBounds w.offset w.len m.size) := by
  simp [splice, Window.check, h, bind, Except.bind]

end Memory
end ConsoleHost
