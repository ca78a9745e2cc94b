import ConsoleHost.Guest.Program
import ConsoleHost.Proofs.Host.Service

/-! Runs of guests: more fuel changes none that has ended, and none ends with a console failure that
is not the console's. -/
namespace ConsoleHost.Guest

variable {σ : Type} {m : Module} {p : Program} {fuel fuel' : Nat} {callee : Callee}
  {next next' : Store → Dialogue Outcome} {c : Console HostError σ} {t : σ}

namespace Machine

theorem run_yields (m : Module) (fuel : Nat) (s : Machine) :
    (run m fuel s).Yields fun ending => ∀ reason, ending ≠ .failed (.io reason) := by
  induction fuel generalizing s with
  | zero =>
    intro reason h
    cases h
  | succ fuel ih =>
    cases hs : s.step m with
    | next t =>
      rw [run_of_next hs]
      exact ih t
    | returned store =>
      rw [run_of_returned hs]
      intro reason h
      cases h
    | trapped trap =>
      rw [run_of_trapped hs]
      intro reason h
      cases h
    | call call t =>
      rw [run_of_call hs]
      refine (call.serve_ne_io t.store).bind ?_
      intro served hq
      cases served with
      | ok result => exact ih _
      | error e =>
        intro reason h
        cases h
        exact hq reason rfl

theorem run_extends (m : Module) (hle : fuel ≤ fuel') (s : Machine) :
    Dialogue.Extends .unfinished (run m fuel s) (run m fuel' s) := by
  induction fuel generalizing s fuel' with
  | zero => exact .gaveUp _
  | succ fuel ih =>
    obtain ⟨fuel', rfl⟩ : ∃ n, fuel' = n + 1 := ⟨fuel' - 1, by omega⟩
    have hle : fuel ≤ fuel' := by omega
    cases hs : s.step m with
    | next t =>
      rw [run_of_next hs, run_of_next hs]
      exact ih hle t
    | returned store =>
      rw [run_of_returned hs, run_of_returned hs]
      exact .done _
    | trapped trap =>
      rw [run_of_trapped hs, run_of_trapped hs]
      exact .done _
    | call call t =>
      rw [run_of_call hs, run_of_call hs]
      refine Dialogue.extends_bind _ ?_
      intro served
      cases served with
      | ok result => exact ih hle _
      | error e => exact .done _

end Machine

namespace Program

/-- An instantiation that does not connect the imports fails with an error of linking. -/
theorem ofInstantiation_of_linkAll {registry : Registry} {imports : List Import} {e : EngineError}
    (h : Import.linkAll registry imports = .error e) :
    .ofInstantiation e = RunError.link e.reasons := by
  unfold Import.linkAll at h
  split at h
  · rename_i hundefined
    cases h
    obtain ⟨i, -, hi⟩ := List.exists_of_findSome?_eq_some hundefined
    unfold Import.undefined? at hi
    split at hi <;> cases hi
    rfl
  · split at h
    · rename_i hincompatible
      cases h
      obtain ⟨i, -, hi⟩ := List.exists_of_findSome?_eq_some hincompatible
      obtain ⟨f, -, hf⟩ := Option.bind_eq_some_iff.mp hi
      obtain ⟨reason, -, rfl⟩ := Option.map_eq_some_iff.mp hf
      rfl
    · cases h

/-- What a run can end with, whatever the console answers. -/
inductive CanEndWith (p : Program) : Outcome → Prop where
  | ok : CanEndWith p .ok
  | unlinked {e : EngineError} (h : Import.linkAll .standard p.module.imports = .error e) :
      CanEndWith p (.failed (.link e.reasons))
  | unresolved {e : RunError} (h : p.required = .error e) : CanEndWith p (.failed e)
  | trapped (t : Trap) : CanEndWith p (.failed (.trap t.message))
  | host {e : HostError} (h : ∀ reason, e ≠ .io reason) : CanEndWith p (.failed (.host e))
  | unfinished : CanEndWith p .unfinished

theorem call_yields (p : Program) (fuel : Nat) (callee : Callee) (store : Store)
    (h : ∀ store, (next store).Yields p.CanEndWith) :
    (p.call .ofCall fuel callee store next).Yields p.CanEndWith := by
  refine (Machine.run_yields p.module fuel _).bind ?_
  intro ending hq
  cases ending with
  | returned store => exact h store
  | trapped t => exact .trapped t
  | failed e =>
    refine .host ?_
    intro reason he
    exact hq reason (congrArg Machine.Ending.failed he)
  | unfinished => exact .unfinished

theorem callStart_yields (p : Program) (fuel : Nat) (store : Store)
    (h : ∀ store, (next store).Yields p.CanEndWith) :
    (p.callStart fuel store next).Yields p.CanEndWith := by
  rw [callStart_eq]
  split
  · exact p.call_yields fuel _ store h
  · exact h store

theorem callEntry_yields (p : Program) (fuel : Nat) (store : Store) :
    (p.callEntry fuel store).Yields p.CanEndWith := by
  unfold callEntry
  split
  · rename_i he
    exact .unresolved he
  · exact p.call_yields fuel _ _ fun _ => .ok

theorem run_yields (p : Program) (fuel : Nat) : (p.run fuel).Yields p.CanEndWith := by
  unfold run Dialogue.Yields
  split
  · rename_i hl
    rw [ofInstantiation_of_linkAll hl]
    exact .unlinked hl
  · split
    · exact .trapped _
    · exact p.callStart_yields fuel _ (p.callEntry_yields fuel)

/-- Nothing but a module's exports can be missing of what a run needs. -/
theorem required_cases (p : Program) :
    (∃ memory entry, p.required = .ok (memory, entry)) ∨
      (∃ what, p.required = .error (.missingExport what)) ∨
      ∃ text, p.required = .error (.validation text) := by
  unfold required
  split
  · exact .inr (.inl ⟨_, rfl⟩)
  · split
    · exact .inr (.inl ⟨_, rfl⟩)
    · split
      · exact .inl ⟨_, _, rfl⟩
      · exact .inr (.inr ⟨_, rfl⟩)

/-- The outcome is not a console failure. -/
def Quiet (outcome : Outcome) : Prop := ∀ reason, outcome ≠ .failed (.host (.io reason))

theorem CanEndWith.quiet {outcome : Outcome} (h : p.CanEndWith outcome) : Quiet outcome := by
  intro reason he
  subst he
  cases h with
  | unresolved h =>
    obtain ⟨_, _, hr⟩ | ⟨_, hr⟩ | ⟨_, hr⟩ := p.required_cases <;> rw [hr] at h <;> cases h
  | host h => exact h reason rfl

theorem call_extends (p : Program) (hle : fuel ≤ fuel') (callee : Callee) (store : Store)
    (h : ∀ store, Dialogue.Extends .unfinished (next store) (next' store)) :
    Dialogue.Extends .unfinished (p.call .ofCall fuel callee store next)
      (p.call .ofCall fuel' callee store next') := by
  refine (Machine.run_extends p.module hle _).bind rfl ?_
  intro ending
  cases ending with
  | returned store => exact h store
  | trapped trap => exact .done _
  | failed e => exact .done _
  | unfinished => exact .done _

theorem callEntry_extends (p : Program) (hle : fuel ≤ fuel') (store : Store) :
    Dialogue.Extends .unfinished (p.callEntry fuel store) (p.callEntry fuel' store) := by
  unfold callEntry
  split
  · exact .done _
  · refine .note (.note ?_)
    exact p.call_extends hle _ _ fun _ => .refl _ _

/-- A run with more fuel is the same run, or goes on where it had not ended. -/
theorem run_extends (p : Program) (hle : fuel ≤ fuel') :
    Dialogue.Extends .unfinished (p.run fuel) (p.run fuel') := by
  unfold run
  refine .note ?_
  split
  · exact .done _
  · split
    · exact .done _
    · rw [callStart_eq, callStart_eq]
      split
      · exact p.call_extends hle _ _ (p.callEntry_extends hle)
      · exact p.callEntry_extends hle _

/-- The run ends, given fuel enough, with this outcome and this state of the console. -/
def Ends (p : Program) (c : Console HostError σ) (s : σ) (result : Outcome × σ) : Prop :=
  result.1 ≠ .unfinished ∧ ∃ fuel, p.runOn fuel c s = result

theorem runOn_eq (h : (p.runOn fuel c t).1 ≠ .unfinished) (hle : fuel ≤ fuel') :
    p.runOn fuel' c t = p.runOn fuel c t := by
  have hrun : ((p.run fuel).run c t).1 ≠ .ok .unfinished := by
    intro hu
    unfold runOn at h
    split at h
    · rename_i hr
      rw [hr] at hu
      cases hu
      exact h rfl
    · rename_i hr
      rw [hr] at hu
      cases hu
  unfold runOn
  rw [(p.run_extends hle).run_eq hrun]

theorem Ends.runOn_eq {result : Outcome × σ} (h : p.Ends c t result) :
    ∃ fuel, ∀ fuel', fuel ≤ fuel' → p.runOn fuel' c t = result := by
  obtain ⟨hu, fuel, hr⟩ := h
  refine ⟨fuel, ?_⟩
  intro fuel' hle
  rw [Program.runOn_eq (by rw [hr]; exact hu) hle, hr]

end Program
end ConsoleHost.Guest
