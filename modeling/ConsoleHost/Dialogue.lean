import ConsoleHost.Log.Entry

/-! Dialogues with a line console: what a program says and asks, independent of any console. -/
namespace ConsoleHost

/-- A computation that reads lines, writes texts and notes log entries before it ends with a value.
What follows a step is not computed before the step has been taken. -/
inductive Dialogue (α : Type) where
  | done (value : α)
  | readLine (next : Option String → Dialogue α)
  | write (text : String) (next : Unit → Dialogue α)
  | note (entry : Log.Entry) (next : Unit → Dialogue α)

namespace Dialogue

variable {α β : Type}

/-- One dialogue and then another that depends on its value. -/
def bind : Dialogue α → (α → Dialogue β) → Dialogue β
  | done a, f => f a
  | readLine next, f => readLine fun line => (next line).bind f
  | write text next, f => write text fun u => (next u).bind f
  | note entry next, f => note entry fun u => (next u).bind f

def ask : Dialogue (Option String) := readLine done

def say (text : String) : Dialogue Unit := write text done

@[simp] theorem done_bind (a : α) (f : α → Dialogue β) : (done a).bind f = f a := rfl

end Dialogue
end ConsoleHost
