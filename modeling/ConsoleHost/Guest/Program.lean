import ConsoleHost.Console.Basic
import ConsoleHost.Guest.Imports
import ConsoleHost.Guest.Instance
import ConsoleHost.Guest.Validity

/-! Programs: the stages from a module to the end of its entry point. -/
namespace ConsoleHost.Guest

structure Config where
  /-- The export that is the guest's memory. -/
  memoryExport : String := "memory"
  /-- The exported function that is the program. -/
  entryPoint : String := "main"
  /-- Whether imports are checked before a run. -/
  checkImports : Bool := true
  deriving DecidableEq, Repr

/-- A compiled module that is ready to run. -/
structure Program where
  module : Module
  config : Config

/-- How a run ends; it may not have ended within the steps allowed. -/
inductive Outcome where
  | ok
  | failed (e : RunError)
  | unfinished
  deriving DecidableEq, Repr

/-- How a run ends if the console fails. It is the guest that has called it, so that both ways of
classifying the error agree. -/
def Outcome.ofConsole (e : HostError) : Outcome := .failed (.ofCall (.ofHost e))

@[simp] theorem Outcome.ofConsole_eq (e : HostError) : ofConsole e = .failed (.host e) := rfl

namespace Program

/-- Compiles a module, and checks its imports unless the configuration says not to. -/
def load (decode : Decoder) (source : Source) (config : Config) : Except RunError Program := do
  let m ← source.compile decode
  if config.checkImports then Import.checkAll m.imports
  return ⟨m, config⟩

/-- The memory and the entry point that a run needs, looked up in this order. -/
def required (p : Program) : Except RunError (Nat × Callee) :=
  match p.module.exportedMemory? p.config.memoryExport with
  | none => .error (.missingExport ("memory '" ++ p.config.memoryExport ++ "'"))
  | some memory =>
    match p.module.exportedFunc? p.config.entryPoint with
    | none => .error (.missingExport (p.config.entryPoint ++ " function"))
    | some (entry, type) =>
      if type.params = [] then .ok (memory, entry)
      else .error (.validation ("export '" ++ p.config.entryPoint ++
        "' must take no parameters, takes " ++ toString type.params.length))

/-- Calls a function and goes on with the store it leaves, unless it fails. What its error comes to
depends on what it is called for. -/
def call (p : Program) (classify : EngineError → RunError) (fuel : Nat) (callee : Callee)
    (store : Store) (next : Store → Dialogue Outcome) : Dialogue Outcome :=
  (Machine.run p.module fuel (.start callee store)).bind fun
    | .returned store => next store
    | .trapped t => .done (.failed (classify (.ofTrap t.message)))
    | .failed e => .done (.failed (classify (.ofHost e)))
    | .unfinished => .done .unfinished

/-- Runs the start function, if there is one. -/
def callStart (p : Program) (fuel : Nat) (store : Store) (next : Store → Dialogue Outcome) :
    Dialogue Outcome :=
  match p.module.start with
  | some index => p.call .ofInstantiation fuel (.own index) store next
  | none => next store

/-- The start function is called as the entry point is: what a guest raises comes to the same in
both. -/
theorem callStart_eq (p : Program) (fuel : Nat) (store : Store)
    (next : Store → Dialogue Outcome) :
    p.callStart fuel store next =
      match p.module.start with
      | some index => p.call .ofCall fuel (.own index) store next
      | none => next store := by
  simp only [callStart, call, RunError.ofInstantiation_ofHost, RunError.ofInstantiation_ofTrap]

/-- Publishes the memory and runs the entry point. -/
def callEntry (p : Program) (fuel : Nat) (store : Store) : Dialogue Outcome :=
  match p.required with
  | .error e => .done (.failed e)
  | .ok (memory, entry) =>
    let pages := ((store.memories[memory]?).map (·.pages)).getD 0
    .note (.published pages) fun _ =>
    .note (.running p.config.entryPoint) fun _ =>
    p.call .ofCall fuel entry (store.publish memory).2 fun _ =>
    .note .finished fun _ => .done .ok

/-- Runs a module once: links it, places its data, runs its start function, looks up its exports,
publishes its memory and runs its entry point, up to the first stage that fails. -/
def run (p : Program) (fuel : Nat) : Dialogue Outcome :=
  .note .instantiating fun _ =>
    match Import.linkAll .standard p.module.imports with
    | .error e => .done (.failed (.ofInstantiation e))
    | .ok _ =>
      match p.module.initialStore with
      | .error t => .done (.failed (.ofInstantiation (.ofTrap t.message)))
      | .ok store => p.callStart fuel store (p.callEntry fuel)

/-- Runs a module on a console. A console call that fails ends the run. -/
def runOn {σ : Type} (p : Program) (fuel : Nat) (c : Console HostError σ) (s : σ) : Outcome × σ :=
  match (p.run fuel).run c s with
  | (.ok outcome, s) => (outcome, s)
  | (.error e, s) => (.ofConsole e, s)

end Program
end ConsoleHost.Guest
