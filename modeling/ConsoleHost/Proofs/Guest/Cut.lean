import ConsoleHost.Proofs.Console.Faults
import ConsoleHost.Proofs.Guest.Runs
import Mathlib

/-! Console failures: one cuts the run of a guest exactly where it happens. -/
namespace ConsoleHost

namespace Faults

/-- The same faults, none of which happens. -/
def never (f : Faults) : Faults := { f with read := 0, write := 0 }

/-- There are fewer reads than the one that fails, and fewer writes. -/
def Spare (f : Faults) (events : List Recorder.Event) : Prop :=
  (f.read = 0 ∨ Recorder.readCount events < f.read) ∧
    (f.write = 0 ∨ Recorder.writeCount events < f.write)

instance (f : Faults) (events : List Recorder.Event) : Decidable (f.Spare events) :=
  inferInstanceAs (Decidable (_ ∧ _))

end Faults

namespace Guest.Program

open Recorder

variable {p : Program} {lines : List String} {faults : Faults} {outcome whole : Outcome}
  {r s : Recorder}

/-- The number of lines that are left to read after some calls. -/
def pendingAfter (lines : List String) (events : List Event) : Nat :=
  (lines.drop (readCount events)).length

theorem spares_start {events : List Event} :
    (start lines faults).Spares events ↔ faults.Spare events := by
  simp [Spares, Faults.Spare, start]

theorem events_start (events : List Event) :
    ((start lines faults).afterAll events).events.toList = events := events_afterAll _ events

theorem pending_start {events : List Event} (h : ∀ e ∈ events, e.isFailed = false) :
    ((start lines faults).afterAll events).script.pending = pendingAfter lines events := by
  rw [Script.pending, input_afterAll h]
  rfl

theorem runOn_alike (p : Program) (fuel : Nat) (r : Recorder) :
    ∃ whole events, (∀ e ∈ events, e.isFailed = false) ∧ Quiet whole ∧
      p.runOn fuel console r.sound = (whole, (r.afterAll events).sound) ∧
      ((r.Spares events ∧ p.runOn fuel console r = (whole, r.afterAll events)) ∨
        ∃ before f, r.Cut events before f ∧
          p.runOn fuel console r = (.failed (.host r.error), r.afterAll (before ++ [f]))) := by
  obtain ⟨whole, events, hok, hsound, hcases⟩ := alike (p.run fuel) r
  refine ⟨whole, events, hok, ((p.run_yields fuel).of_run hsound).quiet, ?_, ?_⟩
  · simp only [runOn, hsound]
  · rcases hcases with ⟨hs, hrun⟩ | ⟨before, f, hcut, hrun⟩
    · exact .inl ⟨hs, by simp only [runOn, hrun]⟩
    · exact .inr ⟨before, f, hcut, by simp only [runOn, hrun, Outcome.ofConsole_eq]⟩

/-- A failed call is the last event of a run, and is what the run ends with. -/
theorem Ends.failed_last (h : p.Ends console (start lines faults) (outcome, r)) :
    (∀ e ∈ r.events.toList.dropLast, e.isFailed = false) ∧
      ((∃ e ∈ r.events.toList, e.isFailed = true) ↔
        ∃ reason, outcome = .failed (.host (.io reason))) := by
  obtain ⟨-, fuel, hrun⟩ := h
  obtain ⟨whole, events, hok, hq, -, hcases⟩ := p.runOn_alike fuel (start lines faults)
  rcases hcases with ⟨-, heq⟩ | ⟨before, f, hcut, heq⟩
  · rw [hrun, Prod.mk.injEq] at heq
    obtain ⟨rfl, rfl⟩ := heq
    rw [events_start]
    refine ⟨fun e he => hok e (List.dropLast_subset _ he), ?_, ?_⟩
    · rintro ⟨e, he, hf⟩
      rw [hok e he] at hf
      cases hf
    · rintro ⟨reason, hr⟩
      exact absurd hr (hq reason)
  · rw [hrun, Prod.mk.injEq] at heq
    obtain ⟨rfl, rfl⟩ := heq
    obtain ⟨e, rest, he, hf, -, -⟩ := hcut
    rw [events_start, List.dropLast_concat]
    refine ⟨fun g hg => hok g (by simp [he, hg]), ?_⟩
    exact ⟨fun _ => ⟨faults.message, rfl⟩, fun _ => ⟨f, by simp, hf.isFailed_eq.2⟩⟩

/-- A run that ends, beside the same run without failures. -/
theorem Ends.beside (h : p.Ends console (start lines faults) (outcome, r))
    (hw : p.Ends console (start lines faults.never) (whole, s)) :
    s.script.pending = pendingAfter lines s.events.toList ∧
      ((faults.Spare s.events.toList ∧ r.events = s.events ∧ r.script = s.script ∧
          outcome = whole) ∨
        ∃ before f, (start lines faults).Cut s.events.toList before f ∧
          r.events.toList = before ++ [f] ∧ r.script.pending = pendingAfter lines before ∧
          outcome = .failed (.host (.io faults.message))) := by
  -- the two runs may have been given different amounts of fuel; both end with the greater one
  obtain ⟨n, hn⟩ := h.runOn_eq
  obtain ⟨n', hn'⟩ := hw.runOn_eq
  obtain ⟨a, events, hok, -, hsound, hcases⟩ := p.runOn_alike (max n n') (start lines faults)
  have hs : (whole, s) = (a, ((start lines faults).afterAll events).sound) :=
    (hn' _ (by omega)).symm.trans hsound
  rw [hn _ (by omega)] at hcases
  cases hs
  have hevents : ((start lines faults).afterAll events).sound.events.toList = events :=
    events_start events
  rw [hevents]
  refine ⟨pending_start hok, ?_⟩
  rcases hcases with ⟨hspares, heq⟩ | ⟨before, f, hcut, heq⟩
  · cases heq
    exact .inl ⟨spares_start.mp hspares, rfl, rfl, rfl⟩
  · cases heq
    obtain ⟨e, rest, he, hf, -, -⟩ := id hcut
    have hbefore : ∀ g ∈ before, g.isFailed = false := fun g hg => hok g (by simp [he, hg])
    refine .inr ⟨before, f, hcut, events_start _, ?_, rfl⟩
    rw [Script.pending, script_afterAll_failed hf]
    exact pending_start hbefore

/-- A guest that writes two newlines. -/
def twoLines : Program where
  module :=
    { Module.empty with
      imports := [⟨"std", "_ln", .func ⟨[], []⟩⟩]
      memories := [⟨1, none, false⟩]
      funcs := [⟨⟨[], []⟩, [.call (.imported "_ln") [], .call (.imported "_ln") []]⟩]
      exports := [⟨"memory", .memory 0⟩, ⟨"main", .own 0⟩] }
  config := {}

end Guest.Program
end ConsoleHost
