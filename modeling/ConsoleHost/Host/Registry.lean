import ConsoleHost.Guest.Error
import ConsoleHost.Host.Function

/-! The table of functions that a guest's imports are connected to. -/
namespace ConsoleHost

/-- The functions that were defined, in order. -/
structure Registry where
  defined : List HostFunction
  deriving DecidableEq, Repr

namespace Registry

def empty : Registry := ⟨[]⟩

def find? (r : Registry) (name : String) : Option HostFunction :=
  r.defined.find? (·.name == name)

/-- A name can be defined once. -/
def define (r : Registry) (f : HostFunction) : Except RunError Registry :=
  match r.find? f.name with
  | some _ =>
    .error (.link ["import of `" ++ HostFunction.namespaceName ++ "::" ++ f.name ++
      "` defined twice"])
  | none => .ok ⟨r.defined ++ [f]⟩

/-- Defines functions in turn, up to the first that fails. -/
def defineAll (r : Registry) : List HostFunction → Option RunError × Registry
  | [] => (none, r)
  | f :: rest =>
    match r.define f with
    | .ok r => r.defineAll rest
    | .error e => (some e, r)

/-- Defines every host function. -/
def register (r : Registry) : Option RunError × Registry := r.defineAll HostFunction.all

/-- The registry that guests are connected to. -/
def standard : Registry := empty.register.2

/-- A registration from nothing defines every function. -/
theorem register_empty : empty.register = (none, ⟨HostFunction.all⟩) := rfl

/-- A second registration fails at its first function and changes nothing. -/
theorem register_all :
    (⟨HostFunction.all⟩ : Registry).register =
      (some (.link ["import of `std::readln` defined twice"]), ⟨HostFunction.all⟩) := rfl

@[simp] theorem find?_standard (name : String) : standard.find? name = HostFunction.find? name := rfl

end Registry
end ConsoleHost
