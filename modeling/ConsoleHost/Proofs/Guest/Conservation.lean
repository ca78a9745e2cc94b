import ConsoleHost.Proofs.Console.Conservation
import ConsoleHost.Proofs.Guest.Runs
import ConsoleHost.Proofs.Host.Isolation
import ConsoleHost.Proofs.Host.Reachable

/-! Conservation over whole runs: of guests, of operations, of a bridge and of a script. -/
namespace ConsoleHost

open Recorder

variable {lines : List String} {past : List Event} {r : Recorder}

theorem Guest.Program.accounted_runOn (p : Program) (fuel : Nat) (h : Accounted lines past r) :
    Accounted lines past (p.runOn fuel console r).2 := by
  have hrun := h.run (p.run fuel)
  unfold runOn
  split <;> rename_i hr <;> rwa [hr] at hrun

theorem Bridge.accounted_step (b : Bridge) (a : Action) (h : Accounted lines past r) :
    Accounted lines past (b.step a r).2.2 := by
  have hrun := h.run (b.act a)
  unfold step
  split <;> rename_i hr <;> rwa [hr] at hrun

theorem Bridge.accounted_after (b : Bridge) (actions : List Action) (h : Accounted lines past r) :
    Accounted lines past (b.after r actions).2 := by
  induction actions generalizing b r with
  | nil => exact h
  | cons a rest ih => exact ih (b.step a r).2.1 (b.accounted_step a h)

namespace Host.Operation

theorem accounted_step (op : Operation) (h : Accounted lines past r) :
    Accounted lines (past ++ (op.step r).1.events) (op.step r).2 :=
  (h.run op.perform).takeEvents

theorem accounted_performAll (ops : List Operation) (h : Accounted lines past r) :
    Accounted lines (past ++ callsOf (performAll ops r).1) (performAll ops r).2 := by
  induction ops generalizing past r with
  | nil => simpa [performAll, callsOf] using h
  | cons op rest ih => simpa [performAll] using ih (op.accounted_step h)

theorem events_performAll (ops : List Operation) (h : r.events = #[]) :
    (performAll ops r).2.events = #[] := by
  induction ops generalizing r with
  | nil => exact h
  | cons op rest ih => exact ih rfl

end Host.Operation

theorem Script.actAll_lines (s : Script) (actions : List Action) :
    s.input ++ actions.filterMap (·.line?) =
      (s.actAll actions).1.filterMap (·.line?) ++ (s.actAll actions).2.input := by
  induction actions generalizing s with
  | nil => simp [actAll]
  | cons a rest ih =>
    have hstep := s.act_lines a
    calc s.input ++ (a :: rest).filterMap (·.line?)
        = s.input ++ a.line?.toList ++ rest.filterMap (·.line?) := by
          cases h : a.line? <;> simp [h]
      _ = (s.act a).1.line?.toList ++ ((s.act a).2.input ++ rest.filterMap (·.line?)) := by
          rw [hstep, List.append_assoc]
      _ = (s.actAll (a :: rest)).1.filterMap (·.line?) ++ (s.actAll (a :: rest)).2.input := by
          rw [ih]
          cases h : (s.act a).1.line? <;> simp [actAll, h]

theorem Script.actAll_text (s : Script) (actions : List Action) :
    s.output ++ String.join (actions.filterMap (·.text?)) =
      String.join ((s.actAll actions).1.filterMap (·.text?)) ++ (s.actAll actions).2.output := by
  induction actions generalizing s with
  | nil => simp [actAll]
  | cons a rest ih =>
    have hstep := s.act_text a
    calc s.output ++ String.join ((a :: rest).filterMap (·.text?))
        = s.output ++ a.text?.getD "" ++ String.join (rest.filterMap (·.text?)) := by
          cases h : a.text? <;> simp [h, String.append_assoc]
      _ = (s.act a).1.text?.getD "" ++
            ((s.act a).2.output ++ String.join (rest.filterMap (·.text?))) := by
          rw [hstep, String.append_assoc]
      _ = String.join ((s.actAll (a :: rest)).1.filterMap (·.text?)) ++
            (s.actAll (a :: rest)).2.output := by
          rw [ih]
          cases h : (s.act a).1.text? <;> simp [actAll, h, String.append_assoc]

/-- On a recording console, whichever calls fail, a run of a guest accounts for the lines to be read
and for the output, however far it gets, and so do any operations and any actions on a bridge. What
is recorded is what the calls have given: a read the first line that is left, which it takes, and
nothing only if none is, and a write its text, which goes to the output. A call that fails leaves
the lines and the output as they are. On a script, the lines at the start and those added are the
lines that were read and those left, and the output at the start and all that was written are what
was taken and what is left. -/
theorem lines_and_texts_conserved (lines : List String) (faults : Faults) :
    (∀ (p : Guest.Program) (fuel : Nat),
      Accounts lines (p.runOn fuel console (start lines faults)).2.events.toList
        (p.runOn fuel console (start lines faults)).2.script) ∧
    (∀ ops : List Host.Operation,
      Accounts lines (Host.callsOf (Host.Operation.stepsOf ops lines faults))
        (Host.Operation.performAll ops (start lines faults)).2.script) ∧
    (∀ actions : List Bridge.Action,
      Accounts lines (Bridge.empty.after (start lines faults) actions).2.events.toList
        (Bridge.empty.after (start lines faults) actions).2.script) ∧
    (∀ (r r' : Recorder) (line : Option String), r.readLine = (.ok line, r') →
      line = r.script.input.head? ∧ r'.script = ⟨r.script.input.tail, r.script.output⟩ ∧
        r'.events = r.events.push (.read line)) ∧
    (∀ (r r' : Recorder) (e : HostError), r.readLine = (.error e, r') →
      r'.script = r.script ∧ r'.events = r.events.push .readFailed) ∧
    (∀ (r r' : Recorder) (text : String), r.write text = (.ok (), r') →
      r'.script = ⟨r.script.input, r.script.output ++ text⟩ ∧
        r'.events = r.events.push (.wrote text)) ∧
    (∀ (r r' : Recorder) (text : String) (e : HostError), r.write text = (.error e, r') →
      r'.script = r.script ∧ r'.events = r.events.push (.writeFailed text)) ∧
    ∀ (s : Script) (actions : List Script.Action),
      s.input ++ actions.filterMap (·.line?) =
          (s.actAll actions).1.filterMap (·.line?) ++ (s.actAll actions).2.input ∧
        s.output ++ String.join (actions.filterMap (·.text?)) =
          String.join ((s.actAll actions).1.filterMap (·.text?)) ++
            (s.actAll actions).2.output := by
  have hstart := accounted_start lines faults
  refine ⟨?guests, ?operations, ?bridges, fun _ _ _ => readLine_ok, fun _ _ _ => readLine_error,
    fun _ _ _ => write_ok, fun _ _ _ _ => write_error,
    fun s actions => ⟨s.actAll_lines actions, s.actAll_text actions⟩⟩
  case guests =>
    intro p fuel
    exact p.accounted_runOn fuel hstart
  case operations =>
    intro ops
    have hall := Host.Operation.accounted_performAll ops hstart
    rw [Accounted, Host.Operation.events_performAll ops rfl] at hall
    simpa [Host.Operation.stepsOf] using hall
  case bridges =>
    intro actions
    exact Bridge.empty.accounted_after actions hstart

example : (Script.ofLines ["a"]).actAll [.enqueue "b", .readLine, .writeLine "x", .drain] =
    ([.done, .line (some "a"), .done, .text "x\n"], ⟨["b"], ""⟩) := by
  decide

end ConsoleHost
