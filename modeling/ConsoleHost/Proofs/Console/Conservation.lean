import ConsoleHost.Proofs.Console.Faults

/-! Conservation: no line and no text is lost on a console, or comes twice, or out of order. -/
namespace ConsoleHost

namespace Script

variable {a : Action} {s : Script}

/-- The line that an action adds to those to be read. -/
def Action.line? : Action → Option String
  | enqueue line => some line
  | readLine | write _ | writeLine _ | drain => none

/-- The text that an action writes. -/
def Action.text? : Action → Option String
  | write text => some text
  | writeLine text => some (text ++ "\n")
  | enqueue _ | readLine | drain => none

/-- The line that has been read, if there was one. -/
def Reply.line? : Reply → Option String
  | line answer => answer
  | text _ | done | nothing => none

/-- The output that has been taken. -/
def Reply.text? : Reply → Option String
  | text taken => some taken
  | line _ | done | nothing => none

/-- What some actions answer, one after the other, and the script after them. -/
def actAll (s : Script) : List Action → List Reply × Script
  | [] => ([], s)
  | a :: rest => ((s.act a).1 :: ((s.act a).2.actAll rest).1, ((s.act a).2.actAll rest).2)

theorem act_lines (s : Script) (a : Action) :
    s.input ++ a.line?.toList = (s.act a).1.line?.toList ++ (s.act a).2.input := by
  cases a with
  | readLine =>
    obtain ⟨input, output⟩ := s
    cases input <;> simp [act, Script.readLine, Action.line?, Reply.line?]
  | enqueue | write | writeLine | drain =>
    simp [act, Script.enqueue, Script.write, Script.writeLine, Script.drain, Action.line?,
      Reply.line?]

theorem act_text (s : Script) (a : Action) :
    s.output ++ a.text?.getD "" = (s.act a).1.text?.getD "" ++ (s.act a).2.output := by
  cases a <;>
    simp [act, Script.enqueue, Script.readLine, Script.write, Script.writeLine, Script.drain,
      Action.text?, Reply.text?, String.append_assoc]

end Script

namespace Recorder

variable {α : Type} {lines : List String} {past events : List Event} {e : Event} {s : Script}
  {r : Recorder} {text : String}

/-- The line that a call has read. -/
def Event.line? : Event → Option String
  | read line => line
  | readFailed | wrote _ | writeFailed _ => none

/-- The text that a call has written. -/
def Event.text? : Event → Option String
  | wrote text => some text
  | read _ | readFailed | writeFailed _ => none

/-- The lines that were read, in order. -/
def linesRead (events : List Event) : List String := events.filterMap (·.line?)

/-- The texts that were written, in order. -/
def textsWritten (events : List Event) : List String := events.filterMap (·.text?)

/-- What the calls of a console say of the lines to be read and of its output. The lines that were
read are the first ones, and the others are left. Every read that does not fail gives the first line
that is left, and nothing only if none is; so one that fails takes none. -/
structure Accounts (lines : List String) (events : List Event) (s : Script) : Prop where
  input : linesRead events ++ s.input = lines
  output : s.output = String.join (textsWritten events)
  next : ∀ before line, before ++ [.read line] <+: events →
    ∃ left, linesRead before ++ left = lines ∧ line = left.head?

theorem accounts_start (lines : List String) : Accounts lines [] (.ofLines lines) := by
  refine ⟨rfl, rfl, ?_⟩
  intro before line h
  simp at h

theorem Accounts.read (h : Accounts lines events s) :
    Accounts lines (events ++ [.read s.readLine.1]) s.readLine.2 := by
  refine ⟨?_, ?_, ?_⟩
  · rw [← h.input]
    obtain ⟨input, output⟩ := s
    cases input <;> simp [linesRead, Event.line?, Script.readLine]
  · simpa [textsWritten, Event.text?, Script.readLine] using h.output
  · intro before line hle
    rcases List.prefix_concat_iff.mp hle with heq | hle
    · obtain ⟨rfl, hline⟩ := List.append_inj' heq rfl
      cases hline
      exact ⟨s.input, h.input, rfl⟩
    · exact h.next before line hle

/-- Calls that read no line leave the lines as they are. -/
theorem Accounts.next_concat (h : Accounts lines events s) (he : ∀ line, e ≠ .read line) :
    ∀ before line, before ++ [.read line] <+: events ++ [e] →
      ∃ left, linesRead before ++ left = lines ∧ line = left.head? := by
  intro before line hle
  rcases List.prefix_concat_iff.mp hle with heq | hle
  · obtain ⟨-, hlast⟩ := List.append_inj' heq rfl
    exact absurd (List.cons.inj hlast).1.symm (he line)
  · exact h.next before line hle

theorem Accounts.wrote (h : Accounts lines events s) (text : String) :
    Accounts lines (events ++ [.wrote text]) (s.write text) := by
  refine ⟨?_, ?_, h.next_concat nofun⟩
  · simpa [linesRead, Event.line?, Script.write] using h.input
  · simp [textsWritten, Event.text?, Script.write, h.output]

theorem Accounts.failed (h : Accounts lines events s) (he : e.isFailed = true) :
    Accounts lines (events ++ [e]) s := by
  cases e with
  | read | wrote => cases he
  | readFailed =>
    exact ⟨by simpa [linesRead, Event.line?] using h.input,
      by simpa [textsWritten, Event.text?] using h.output, h.next_concat nofun⟩
  | writeFailed text =>
    exact ⟨by simpa [linesRead, Event.line?] using h.input,
      by simpa [textsWritten, Event.text?] using h.output, h.next_concat nofun⟩

/-- The recorder accounts for what it was given, with some calls that were taken off it before. -/
def Accounted (lines : List String) (past : List Event) (r : Recorder) : Prop :=
  Accounts lines (past ++ r.events.toList) r.script

theorem accounted_start (lines : List String) (faults : Faults) :
    Accounted lines [] (start lines faults) := accounts_start lines

theorem Accounted.readLine (h : Accounted lines past r) : Accounted lines past r.readLine.2 := by
  unfold Accounted at h ⊢
  by_cases hs : r.Spares [.read none]
  · simpa [readLine_of_spares hs, after] using h.read
  · simpa [readLine_of_not_spares hs, after] using h.failed (e := .readFailed) rfl

theorem Accounted.write (h : Accounted lines past r) (text : String) :
    Accounted lines past (r.write text).2 := by
  unfold Accounted at h ⊢
  by_cases hs : r.Spares [.wrote text]
  · simpa [write_of_spares hs, after] using h.wrote text
  · simpa [write_of_not_spares hs, after] using h.failed (e := .writeFailed text) rfl

/-- A dialogue accounts for the lines and the output, however it ends. -/
theorem Accounted.run (h : Accounted lines past r) (d : Dialogue α) :
    Accounted lines past (d.run console r).2 :=
  Dialogue.run_preserves (c := console) (I := Accounted lines past) (fun _ => Accounted.readLine)
    (fun text _ h => h.write text) (fun _ _ h => h) d h

theorem Accounted.takeEvents (h : Accounted lines past r) :
    Accounted lines (past ++ r.takeEvents.1) r.takeEvents.2 := by
  unfold Accounted at h ⊢
  simpa [Recorder.takeEvents] using h

end Recorder
end ConsoleHost
