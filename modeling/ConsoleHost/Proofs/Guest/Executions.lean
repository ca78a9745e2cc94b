import ConsoleHost.Proofs.Guest.Runs

/-! Executions: what a guest function does on a console, with the host calls it makes and without a
bound on its steps. -/
namespace ConsoleHost

variable {σ : Type}

/-- A call served on a console. If the console fails, so does the call. -/
def HostCall.serveOn (call : HostCall) (store : Store) (c : Console HostError σ) (t : σ) :
    Served × σ :=
  match (call.serve store).run c t with
  | (.ok served, t) => (served, t)
  | (.error e, t) => (.error e, t)

namespace Guest.Machine

variable {m : Module} {c : Console HostError σ} {s s' : Machine} {t u u' : σ} {store : Store}
  {trap : Trap} {call : HostCall} {calls calls' : List (HostCall × σ)} {ending ending' : Ending}
  {fuel : Nat}

/-- A machine runs on a console up to its ending. The calls it makes of the host come with the
console as it was when they were made. -/
inductive Executes (m : Module) (c : Console HostError σ) :
    Machine → σ → List (HostCall × σ) → Ending → σ → Prop where
  | returned {s : Machine} {t : σ} {store : Store} (h : s.step m = .returned store) :
      Executes m c s t [] (.returned store) t
  | trapped {s : Machine} {t : σ} {trap : Trap} (h : s.step m = .trapped trap) :
      Executes m c s t [] (.trapped trap) t
  | next {s s' : Machine} {t t' : σ} {calls : List (HostCall × σ)} {ending : Ending}
      (h : s.step m = .next s') (hx : Executes m c s' t calls ending t') :
      Executes m c s t calls ending t'
  | served {s s' : Machine} {t t' u : σ} {call : HostCall} {result : Option Int32} {store : Store}
      {calls : List (HostCall × σ)} {ending : Ending} (h : s.step m = .call call s')
      (hs : call.serveOn s'.store c t = (.ok (result, store), t'))
      (hx : Executes m c (s'.resume result store) t' calls ending u) :
      Executes m c s t ((call, t) :: calls) ending u
  | refused {s s' : Machine} {t t' : σ} {call : HostCall} {e : HostError}
      (h : s.step m = .call call s') (hs : call.serveOn s'.store c t = (.error e, t')) :
      Executes m c s t [(call, t)] (.failed e) t'

/-- Executions are those of the step function, and there is at most one from each state. -/
theorem Executes.unique (h : Executes m c s t calls ending u)
    (h' : Executes m c s t calls' ending' u') : calls = calls' ∧ ending = ending' ∧ u = u' := by
  induction h generalizing calls' with
  | returned hs | trapped hs => cases h' <;> simp_all
  | next hs _ ih =>
    cases h' with
    | next hs' hx =>
      obtain rfl := Step.next.inj (hs.symm.trans hs')
      exact ih hx
    | returned hs' | trapped hs' | served hs' | refused hs' => simp_all
  | served hs hserve _ ih =>
    cases h' with
    | served hs' hserve' hx =>
      obtain ⟨rfl, rfl⟩ := Step.call.inj (hs.symm.trans hs')
      rw [hserve] at hserve'
      cases hserve'
      obtain ⟨rfl, he, hu⟩ := ih hx
      exact ⟨rfl, he, hu⟩
    | returned hs' | trapped hs' | next hs' | refused hs' => simp_all
  | refused hs hserve => cases h' <;> simp_all

/-- What a bounded run comes to on a console. -/
def runOn (m : Module) (fuel : Nat) (s : Machine) (c : Console HostError σ) (t : σ) : Ending × σ :=
  match (run m fuel s).run c t with
  | (.ok ending, t) => (ending, t)
  | (.error e, t) => (.failed e, t)

theorem runOn_of_next (h : s.step m = .next s') :
    runOn m (fuel + 1) s c t = runOn m fuel s' c t := by
  rw [runOn, run_of_next h, runOn]

theorem runOn_of_returned (h : s.step m = .returned store) :
    runOn m (fuel + 1) s c t = (.returned store, t) := by
  rw [runOn, run_of_returned h]
  rfl

theorem runOn_of_trapped (h : s.step m = .trapped trap) :
    runOn m (fuel + 1) s c t = (.trapped trap, t) := by
  rw [runOn, run_of_trapped h]
  rfl

theorem runOn_of_call (h : s.step m = .call call s') :
    runOn m (fuel + 1) s c t =
      match call.serveOn s'.store c t with
      | (.ok (result, store), t) => runOn m fuel (s'.resume result store) c t
      | (.error e, t) => (.failed e, t) := by
  rw [runOn, run_of_call h, Dialogue.run_bind, HostCall.serveOn]
  cases (call.serve s'.store).run c t with
  | mk served t =>
    cases served with
    | error e => rfl
    | ok served => cases served <;> rfl

/-- A bounded run that ends is an execution. -/
theorem executes_of_runOn (h : runOn m fuel s c t = (ending, u)) (he : ending ≠ .unfinished) :
    ∃ calls, Executes m c s t calls ending u := by
  induction fuel generalizing s t with
  | zero =>
    cases h
    exact absurd rfl he
  | succ fuel ih =>
    cases hs : s.step m with
    | next s' =>
      rw [runOn_of_next hs] at h
      obtain ⟨calls, hx⟩ := ih h
      exact ⟨calls, .next hs hx⟩
    | returned store =>
      rw [runOn_of_returned hs] at h
      cases h
      exact ⟨[], .returned hs⟩
    | trapped trap =>
      rw [runOn_of_trapped hs] at h
      cases h
      exact ⟨[], .trapped hs⟩
    | call call s' =>
      rw [runOn_of_call hs] at h
      split at h
      · rename_i hserve
        obtain ⟨calls, hx⟩ := ih h
        exact ⟨(call, t) :: calls, .served hs hserve hx⟩
      · rename_i hserve
        cases h
        exact ⟨[(call, t)], .refused hs hserve⟩

/-- The error that an ending is reported as. -/
def Ending.error? : Ending → Option RunError
  | .trapped t => some (.trap t.message)
  | .failed e => some (.host e)
  | .returned _ | .unfinished => none

/-- How a run ends if this is how its last function does. -/
def Ending.outcome : Ending → Outcome
  | .returned _ => .ok
  | .trapped t => .failed (.trap t.message)
  | .failed e => .failed (.host e)
  | .unfinished => .unfinished

theorem Ending.outcome_of_error? {e : RunError} (h : ending.error? = some e) :
    ending.outcome = .failed e := by
  cases ending <;> cases h <;> rfl

end Guest.Machine

namespace Guest.Program

variable {p : Program} {c : Console HostError σ} {fuel : Nat} {callee : Callee} {store : Store}
  {next : Store → Dialogue Outcome} {s t : σ} {outcome : Outcome}

/-- What the end of a dialogue on a console says of the run. -/
def conclude : Except HostError Outcome × σ → Outcome × σ
  | (.ok outcome, s) => (outcome, s)
  | (.error e, s) => (.ofConsole e, s)

theorem runOn_eq_conclude (p : Program) (fuel : Nat) (c : Console HostError σ) (s : σ) :
    p.runOn fuel c s = conclude ((p.run fuel).run c s) := by
  unfold runOn
  split <;> simp_all [conclude]

theorem conclude_call : conclude ((p.call .ofCall fuel callee store next).run c s) =
    match Machine.runOn p.module fuel (.start callee store) c s with
    | (.returned store, s) => conclude ((next store).run c s)
    | (.trapped t, s) => (.failed (.trap t.message), s)
    | (.failed e, s) => (.failed (.host e), s)
    | (.unfinished, s) => (.unfinished, s) := by
  rw [call, Dialogue.run_bind, Machine.runOn]
  cases (Machine.run p.module fuel (.start callee store)).run c s with
  | mk ending s =>
    cases ending with
    | error e => rfl
    | ok ending => cases ending <;> rfl

/-- If a run ends, then so does a function it calls: the run goes on where the function returns, and
ends with its failure where it fails. -/
theorem executes_of_call
    (h : conclude ((p.call .ofCall fuel callee store next).run c s) = (outcome, t))
    (hu : outcome ≠ .unfinished) :
    ∃ calls ending u, Machine.Executes p.module c (.start callee store) s calls ending u ∧
      ((∃ store', ending = .returned store' ∧ conclude ((next store').run c u) = (outcome, t)) ∨
        ∃ e, ending.error? = some e ∧ outcome = .failed e ∧ t = u) := by
  rw [conclude_call] at h
  cases hr : Machine.runOn p.module fuel (.start callee store) c s with
  | mk ending u =>
    rw [hr] at h
    cases ending with
    | returned store' =>
      obtain ⟨calls, hx⟩ := Machine.executes_of_runOn hr nofun
      exact ⟨calls, _, u, hx, .inl ⟨store', rfl, h⟩⟩
    | trapped trap =>
      cases h
      obtain ⟨calls, hx⟩ := Machine.executes_of_runOn hr nofun
      exact ⟨calls, _, _, hx, .inr ⟨_, rfl, rfl, rfl⟩⟩
    | failed e =>
      cases h
      obtain ⟨calls, hx⟩ := Machine.executes_of_runOn hr nofun
      exact ⟨calls, _, _, hx, .inr ⟨_, rfl, rfl, rfl⟩⟩
    | unfinished =>
      cases h
      exact absurd rfl hu

end Guest.Program
end ConsoleHost
