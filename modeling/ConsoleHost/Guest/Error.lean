import ConsoleHost.Host.Error

/-! The ways in which running a guest module fails. -/
namespace ConsoleHost

/-- What was being done when a run failed. -/
inductive FailureKind where
  | usage
  | load
  | execution
  deriving DecidableEq, Repr

def FailureKind.name : FailureKind → String
  | usage => "Usage"
  | load => "Load"
  | execution => "Execution"

inductive RunError where
  /-- The command line is incomplete. -/
  | usage (text : String)
  /-- The module file cannot be read. -/
  | read (path reason : String)
  /-- The module is malformed or invalid; the reasons go from the outermost to the innermost. -/
  | compile (reasons : List String)
  /-- The module's imports or exports are not those of a guest. -/
  | validation (text : String)
  /-- The imports cannot be connected; the reasons go from the outermost to the innermost. -/
  | link (reasons : List String)
  /-- A required export is absent. -/
  | missingExport (what : String)
  /-- A host function failed. -/
  | host (error : HostError)
  /-- The guest trapped. -/
  | trap (text : String)
  /-- The guest failed in another way. -/
  | execution (text : String)
  deriving DecidableEq, Repr

namespace RunError

def message : RunError → String
  | usage text => text
  | read path reason => "cannot read module " ++ path ++ ": " ++ reason
  | compile reasons => "compile error: " ++ ": ".intercalate reasons
  | validation text => "validation error: " ++ text
  | link reasons => "link error: " ++ ": ".intercalate reasons
  | missingExport what => "wasm program does not export " ++ what
  | host error => "host error: " ++ error.message
  | trap text => "guest trapped: " ++ text
  | execution text => "execution error: " ++ text

def kind : RunError → FailureKind
  | usage _ => .usage
  | read .. | compile _ | validation _ | link _ | missingExport _ => .load
  | host _ | trap _ | execution _ => .execution

/-- Which side a failed host function is to be blamed on. -/
def hint? : RunError → Option String
  | host error =>
    if error.isGuestFault then some "the program passed a memory range outside its linear memory"
    else some "the host could not serve the call"
  | _ => none

/-- What is shown of an error at the end of a run. -/
def report (e : RunError) : String :=
  "error: " ++ e.message ++ "\n" ++
    match e.hint? with
    | some hint => "note: " ++ hint ++ "\n"
    | none => ""

end RunError

/-- What an error of the engine was in the first place. -/
inductive EngineCause where
  | host (error : HostError)
  | trap (text : String)
  | other (text : String)
  deriving DecidableEq, Repr

def EngineCause.text : EngineCause → String
  | host error => error.message
  | trap text | other text => text

/-- An error that the engine hands on, with the contexts it was given on its way, the outermost
first. -/
structure EngineError where
  contexts : List String := []
  cause : EngineCause
  deriving DecidableEq, Repr

namespace EngineError

def ofHost (error : HostError) : EngineError := { cause := .host error }

def ofTrap (text : String) : EngineError := { cause := .trap text }

/-- The reasons, from the outermost to the innermost. -/
def reasons (e : EngineError) : List String := e.contexts ++ [e.cause.text]

end EngineError

namespace RunError

/-- What an error comes to that a call of the guest has raised. -/
def ofCall (e : EngineError) : RunError :=
  match e.cause with
  | .host error => .host error
  | .trap text => .trap text
  | .other _ => .execution (": ".intercalate e.reasons)

/-- What an error comes to that an instantiation has raised. A start function can have raised it;
otherwise the imports could not be connected. -/
def ofInstantiation (e : EngineError) : RunError :=
  match e.cause with
  | .host _ | .trap _ => ofCall e
  | .other _ => .link e.reasons

/-- The two agree on what guests raise, and on nothing else. -/
theorem ofInstantiation_eq_ofCall_iff {e : EngineError} :
    ofInstantiation e = ofCall e ↔ ∀ text, e.cause ≠ .other text := by
  obtain ⟨contexts, cause⟩ := e
  cases cause <;> simp [ofInstantiation, ofCall]

theorem ofInstantiation_ofHost (error : HostError) :
    ofInstantiation (.ofHost error) = ofCall (.ofHost error) :=
  ofInstantiation_eq_ofCall_iff.mpr nofun

theorem ofInstantiation_ofTrap (text : String) :
    ofInstantiation (.ofTrap text) = ofCall (.ofTrap text) :=
  ofInstantiation_eq_ofCall_iff.mpr nofun

end RunError
end ConsoleHost
