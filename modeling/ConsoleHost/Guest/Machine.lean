import ConsoleHost.Guest.Module
import ConsoleHost.Host.Call

/-! The machine that runs guest functions: one small step at a time, stopping at host calls. -/
namespace ConsoleHost.Guest

inductive Trap where
  | unreachable
  | divideByZero
  | overflow
  | outOfBounds
  | stackExhausted
  deriving DecidableEq, Repr

def Trap.message : Trap → String
  | unreachable => "wasm trap: wasm `unreachable` instruction executed"
  | divideByZero => "wasm trap: integer divide by zero"
  | overflow => "wasm trap: integer overflow"
  | outOfBounds => "wasm trap: out of bounds memory access"
  | stackExhausted => "wasm trap: call stack exhausted"

/-- What is left to do in a function. -/
inductive Task where
  | block (body : List Stmt)
  | eval (e : Expr)
  | invoke (callee : Callee)
  /-- Forgets what a statement has left behind. -/
  | drop
  | assign
  | grow
  | load (access : Access)
  | store (access : Access)
  | intOp (op : IntOp)
  | realOp (op : RealOp)
  | convert
  | choose (yes no : List Stmt)
  | again (condition : Expr) (body : List Stmt)
  | trap
  deriving Repr

/-- A statement as tasks: its operands from left to right, and then what is done with them. -/
def Stmt.tasks : Stmt → List Task
  | .call callee args => args.map .eval ++ [.invoke callee, .drop]
  | .set value => [.eval value, .assign]
  | .grow pages => [.eval pages, .grow]
  | .store access address value => [.eval address, .eval value, .store access]
  | .branch condition yes no => [.eval condition, .choose yes no]
  | .loop condition body => [.eval condition, .again condition body]
  | .unreachable => [.trap]

/-- A function that has been entered and has not returned. -/
structure Frame where
  tasks : List Task
  /-- The values computed so far, the latest first. -/
  stack : List Word
  var : Int32
  /-- How many values it returns. -/
  results : Nat

namespace Frame

def push (f : Frame) (w : Word) : Frame := { f with stack := w :: f.stack }

def plan (f : Frame) (tasks : List Task) : Frame := { f with tasks := tasks ++ f.tasks }

/-- The latest value; there is one wherever a task needs it. -/
def top (f : Frame) : Word := f.stack.headD 0

def pop (f : Frame) (n : Nat) : Frame := { f with stack := f.stack.drop n }

/-- The latest `n` values, the earliest of them first. -/
def args (f : Frame) (n : Nat) : List Word := (f.stack.take n).reverse

end Frame

structure Machine where
  frame : Frame
  /-- The functions waiting for it, the innermost first. -/
  callers : List Frame
  /-- How many calls can still be nested. -/
  room : Nat
  store : Store

/-- What one step comes to. -/
inductive Step where
  | next (s : Machine)
  | call (c : HostCall) (s : Machine)
  | returned (store : Store)
  | trapped (t : Trap)

def IntOp.apply (op : IntOp) (a b : Int32) : Except Trap Int32 :=
  match op with
  | .add => .ok (a + b)
  | .sub => .ok (a - b)
  | .mul => .ok (a * b)
  | .div =>
    if b = 0 then .error .divideByZero
    else if a = Int32.minValue ∧ b = -1 then .error .overflow
    else .ok (a / b)
  | .lt => .ok (if a < b then 1 else 0)
  | .eq => .ok (if a = b then 1 else 0)

def Access.width : Access → Nat
  | .byte => 1
  | .int => 4
  | .real => 8

/-- The low bytes of a word, the lowest first. -/
def littleEndian (n : Nat) (w : Word) : List UInt8 :=
  (List.range n).map fun i => (w >>> (8 * i).toUInt64).toUInt8

def ofLittleEndian (bytes : List UInt8) : Word :=
  bytes.foldr (fun b w => w <<< 8 ||| b.toUInt64) 0

namespace Machine

/-- How deep calls can be nested. -/
def depth : Nat := 20000

/-- A machine that is about to call a function that takes nothing. -/
def start (callee : Callee) (store : Store) : Machine :=
  ⟨⟨[.invoke callee], [], 0, 0⟩, [], depth, store⟩

/-- Goes on with the frame changed. -/
def onFrame (s : Machine) (f : Frame → Frame) : Step := .next { s with frame := f s.frame }

/-- Ends the innermost function, which returns zeros. -/
def leave (s : Machine) : Step :=
  match s.callers with
  | [] => .returned s.store
  | caller :: callers =>
    .next
      { frame := { caller with stack := List.replicate s.frame.results 0 ++ caller.stack }
        callers
        room := s.room + 1
        store := s.store }

/-- Enters a function of the module. -/
def enter (s : Machine) (f : Func) : Step :=
  if s.room = 0 then .trapped .stackExhausted
  else
    .next
      { frame := ⟨[.block f.body], [], 0, f.type.results.length⟩
        callers := s.frame.pop f.type.params.length :: s.callers
        room := s.room - 1
        store := s.store }

/-- Calls a function. Compiling and linking leave no callee unknown. -/
def invoke (m : Module) (s : Machine) : Callee → Step
  | .imported name =>
    match HostFunction.find? name with
    | some f =>
      let n := f.type.params.length
      .call (f.call (s.frame.args n)) { s with frame := s.frame.pop n }
    | none => .trapped .unreachable
  | .own index =>
    match m.funcs[index]? with
    | some f => s.enter f
    | none => .trapped .unreachable

/-- The size of the first memory in bytes. -/
def memorySize (s : Machine) : Nat := (s.store.memories[0]?.map (·.size)).getD 0

def load (s : Machine) (access : Access) : Step :=
  let address := s.frame.top.toUInt32.toNat
  if address + access.width ≤ s.memorySize then
    let bytes := (s.store.memories[0]?.map (·.read address access.width)).getD []
    s.onFrame fun f => (f.pop 1).push (ofLittleEndian bytes)
  else .trapped .outOfBounds

def save (s : Machine) (access : Access) : Step :=
  let value := s.frame.top
  let address := (s.frame.pop 1).top.toUInt32.toNat
  if address + access.width ≤ s.memorySize then
    .next
      { s with
        frame := s.frame.pop 2
        store := s.store.modify 0 fun m => m.write address (littleEndian access.width value) }
  else .trapped .outOfBounds

/-- The variable becomes the old number of pages, or -1 if the memory cannot grow so far. -/
def growMemory (s : Machine) : Step :=
  let (old, store) := s.store.grow 0 s.frame.top.toUInt32.toNat
  .next
    { s with
      frame := { s.frame.pop 1 with var := (old.map Int32.ofNat).getD (-1) }
      store }

def evaluate (s : Machine) : Expr → Step
  | .int value => s.onFrame (·.push (.ofInt32 value))
  | .real value => s.onFrame (·.push value.bits)
  | .var => s.onFrame fun f => f.push (.ofInt32 f.var)
  | .call callee args => s.onFrame (·.plan (args.map .eval ++ [.invoke callee]))
  | .size => s.onFrame (·.push (.ofInt32 (.ofNat (s.memorySize / Memory.pageSize))))
  | .load access address => s.onFrame (·.plan [.eval address, .load access])
  | .intOp op a b => s.onFrame (·.plan [.eval a, .eval b, .intOp op])
  | .realOp op x y => s.onFrame (·.plan [.eval x, .eval y, .realOp op])
  | .convert a => s.onFrame (·.plan [.eval a, .convert])

/-- Does one task, which has been taken off the frame. -/
def perform (m : Module) (s : Machine) : Task → Step
  | .block [] => .next s
  | .block (first :: rest) => s.onFrame (·.plan (first.tasks ++ [.block rest]))
  | .eval e => s.evaluate e
  | .invoke callee => s.invoke m callee
  | .drop => s.onFrame fun f => { f with stack := [] }
  | .assign => s.onFrame fun f => { f.pop 1 with var := f.top.toInt32 }
  | .grow => s.growMemory
  | .load access => s.load access
  | .store access => s.save access
  | .intOp op =>
    match op.apply (s.frame.pop 1).top.toInt32 s.frame.top.toInt32 with
    | .ok value => s.onFrame fun f => (f.pop 2).push (.ofInt32 value)
    | .error t => .trapped t
  | .realOp op =>
    s.onFrame fun f => (f.pop 2).push (Double.apply op ⟨(f.pop 1).top⟩ ⟨f.top⟩).bits
  | .convert => s.onFrame fun f => (f.pop 1).push (Double.ofInt f.top.toInt32.toInt).bits
  | .choose yes no =>
    s.onFrame fun f => (f.pop 1).plan [.block (if f.top.toInt32 = 0 then no else yes)]
  | .again condition body =>
    s.onFrame fun f =>
      if f.top.toInt32 = 0 then f.pop 1
      else (f.pop 1).plan [.block body, .eval condition, .again condition body]
  | .trap => .trapped .unreachable

def step (m : Module) (s : Machine) : Step :=
  match s.frame.tasks with
  | [] => s.leave
  | task :: rest => { s with frame := { s.frame with tasks := rest } }.perform m task

/-- The machine after a host call has been served. -/
def resume (s : Machine) (result : Option Int32) (store : Store) : Machine :=
  { s with
    frame := { s.frame with stack := (result.map Word.ofInt32).toList ++ s.frame.stack }
    store }

/-- How running a function ends. -/
inductive Ending where
  | returned (store : Store)
  | trapped (t : Trap)
  | failed (e : HostError)
  /-- It has not ended within the steps allowed. -/
  | unfinished

/-- Runs for at most so many steps. Host calls are held as dialogues. -/
def run (m : Module) : Nat → Machine → Dialogue Ending
  | 0, _ => .done .unfinished
  | fuel + 1, s =>
    match s.step m with
    | .next s => run m fuel s
    | .returned store => .done (.returned store)
    | .trapped t => .done (.trapped t)
    | .call c s =>
      (c.serve s.store).bind fun
        | .ok (result, store) => run m fuel (s.resume result store)
        | .error e => .done (.failed e)

variable {m : Module} {s t : Machine} {fuel : Nat}

theorem run_of_next (h : s.step m = .next t) : run m (fuel + 1) s = run m fuel t := by
  rw [run, h]

theorem run_of_returned {store : Store} (h : s.step m = .returned store) :
    run m (fuel + 1) s = .done (.returned store) := by
  rw [run, h]

theorem run_of_trapped {trap : Trap} (h : s.step m = .trapped trap) :
    run m (fuel + 1) s = .done (.trapped trap) := by
  rw [run, h]

theorem run_of_call {c : HostCall} (h : s.step m = .call c t) :
    run m (fuel + 1) s =
      (c.serve t.store).bind fun
        | .ok (result, store) => run m fuel (t.resume result store)
        | .error e => .done (.failed e) := by
  rw [run, h]

end Machine
end ConsoleHost.Guest
