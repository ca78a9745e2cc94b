import ConsoleHost.Dialogue

/-! Consoles: how a dialogue is held with one, up to the first call that fails. -/
namespace ConsoleHost

/-- A console with states `σ` whose calls can fail with `ε`. A failed call has a next state too. -/
structure Console (ε σ : Type) where
  readLine : σ → Except ε (Option String) × σ
  write : String → σ → Except ε Unit × σ
  note : Log.Entry → σ → σ := fun _ s => s

namespace Dialogue

variable {ε σ α β : Type} {c : Console ε σ} {s : σ}

/-- Holds a dialogue. The first failing call ends it. -/
def run (c : Console ε σ) : Dialogue α → σ → Except ε α × σ
  | done a, s => (.ok a, s)
  | readLine next, s =>
    match c.readLine s with
    | (.ok line, s) => (next line).run c s
    | (.error e, s) => (.error e, s)
  | write text next, s =>
    match c.write text s with
    | (.ok _, s) => (next ()).run c s
    | (.error e, s) => (.error e, s)
  | note entry next, s => (next ()).run c (c.note entry s)

@[simp] theorem run_done (a : α) : (done a).run c s = (.ok a, s) := rfl

theorem run_bind (d : Dialogue α) (f : α → Dialogue β) (s : σ) :
    (d.bind f).run c s =
      match d.run c s with
      | (.ok a, s) => (f a).run c s
      | (.error e, s) => (.error e, s) := by
  induction d generalizing s with
  | done a => rfl
  | readLine next ih =>
    simp only [bind, run]
    split
    · exact ih _ _
    · rfl
  | write text next ih =>
    simp only [bind, run]
    split
    · exact ih _ _
    · rfl
  | note entry next ih => simp only [bind, run, ih]

end Dialogue
end ConsoleHost
