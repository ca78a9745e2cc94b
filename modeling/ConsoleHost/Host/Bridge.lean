import ConsoleHost.Console.Recorder
import ConsoleHost.Host.Call
import ConsoleHost.Host.Registry

/-! The bridge between guests and the host, driven by hand: memories are made, published and
changed, and host functions are called, in any order. -/
namespace ConsoleHost

structure Bridge where
  registry : Registry
  store : Store

namespace Bridge

def empty : Bridge := ⟨.empty, .empty⟩

inductive Action where
  | register
  | newMemory (pages : Nat) (max : Option Nat)
  | publish (mem : Nat)
  /-- Asks for the size of the published memory. -/
  | published
  | grow (mem pages : Nat)
  | poke (mem offset : Nat) (bytes : List UInt8)
  | peek (mem offset len : Nat)
  | call (name : String) (args : List Word)
  deriving DecidableEq, Repr

inductive Reply where
  | done
  | number (n : Int)
  | accepted (ok : Bool)
  | bytes (bytes : List UInt8)
  | result (value : Option Int32)
  /-- There is no function of the name. -/
  | undefined
  deriving DecidableEq, Repr

inductive Failure where
  | host (e : HostError)
  | run (e : RunError)
  deriving DecidableEq, Repr

/-- What an action answers, and the bridge after it. -/
abbrev Acted := Except Failure Reply × Bridge

def call (b : Bridge) (name : String) (args : List Word) : Dialogue Acted :=
  match b.registry.find? name with
  | none => .done (.ok .undefined, b)
  | some f =>
    ((f.call args).serve b.store).bind fun
      | .ok (value, store) => .done (.ok (.result value), { b with store })
      | .error e => .done (.error (.host e), b)

def act (b : Bridge) : Action → Dialogue Acted
  | .register =>
    match b.registry.register with
    | (none, registry) => .done (.ok .done, { b with registry })
    | (some e, registry) => .done (.error (.run e), { b with registry })
  | .newMemory pages max =>
    let (k, store) := b.store.add (.ofPages pages max)
    .done (.ok (.number k), { b with store })
  | .publish mem =>
    let (accepted, store) := b.store.publish mem
    .done (.ok (.accepted accepted), { b with store })
  | .published =>
    match b.store.memory with
    | .ok (_, m) => .done (.ok (.number m.size), b)
    | .error e => .done (.error (.host e), b)
  | .grow mem pages =>
    match b.store.grow mem pages with
    | (some old, store) => .done (.ok (.number old), { b with store })
    | (none, store) => .done (.ok (.number (-1)), { b with store })
  | .poke mem offset bytes =>
    .done (.ok .done, { b with store := b.store.modify mem fun m => m.write offset bytes })
  | .peek mem offset len =>
    .done (.ok (.bytes (((b.store.memories[mem]?).map fun m => m.read offset len).getD [])), b)
  | .call name args => b.call name args

/-- An action with the calls it makes held on a recording console. A failing console call changes
nothing but the console. -/
def step (b : Bridge) (a : Action) (r : Recorder) : Except Failure Reply × Bridge × Recorder :=
  match (b.act a).run Recorder.console r with
  | (.ok (reply, b), r) => (reply, b, r)
  | (.error e, r) => (.error (.host e), b, r)

end Bridge
end ConsoleHost
