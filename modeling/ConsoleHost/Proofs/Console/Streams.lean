import ConsoleHost.Console.Streams
import ConsoleHost.Proofs.Console.Conservation
import ConsoleHost.Proofs.Text.Lines

/-! Streams and scripts: a dialogue goes the same way on both, given the same lines. -/
namespace ConsoleHost.Streams

open Recorder

variable {α : Type} {s : Streams} {bytes : List UInt8} {entry : Log.Entry}

/-- Notes go to the log, if anywhere. -/
theorem exists_note_eq (s : Streams) (entry : Log.Entry) :
    ∃ log, s.note entry = { s with log } := by
  rw [note]
  split
  · exact ⟨_, rfl⟩
  · exact ⟨s.log, rfl⟩

theorem output_note : (s.note entry).output = s.output := by
  obtain ⟨log, h⟩ := s.exists_note_eq entry
  rw [h]

/-- The bytes that are left can be read, and texts can be written. -/
structure Open (s : Streams) (bytes : List UInt8) : Prop where
  input : s.input = .ok bytes
  outputFault : s.outputFault = none

theorem Open.note (h : s.Open bytes) (entry : Log.Entry) : (s.note entry).Open bytes := by
  obtain ⟨log, hnote⟩ := s.exists_note_eq entry
  rw [hnote]
  exact ⟨h.input, h.outputFault⟩

/-- A line is read as it is taken from the script of all lines, whether or not anything can be
written. -/
theorem exists_readLine_eq (h : s.input = .ok bytes) :
    ∃ bytes' log, s.readLine = (.ok (Text.lines bytes).head?, { s with input := .ok bytes', log }) ∧
      Text.lines bytes' = (Text.lines bytes).tail := by
  by_cases hb : bytes = []
  · subst hb
    obtain ⟨log, hnote⟩ := s.exists_note_eq .endOfInput
    refine ⟨[], log, ?_, rfl⟩
    rw [← h]
    simp [Streams.readLine, h, hnote, Text.lines, Text.pieces]
  · refine ⟨(Text.cutLine bytes).2, s.log, ?_, ?_⟩
    · rw [Text.lines_eq hb, Streams.readLine]
      split <;> rename_i hread <;> cases h.symm.trans hread
      · exact absurd rfl hb
      · rfl
    · rw [Text.lines_eq hb, List.tail_cons]

/-- Nothing else is read, and nothing is written. -/
theorem Open.readLine (h : s.Open bytes) :
    ∃ bytes' s', s.readLine = (.ok (Text.lines bytes).head?, s') ∧ s'.Open bytes' ∧
      Text.lines bytes' = (Text.lines bytes).tail ∧ s'.output = s.output := by
  obtain ⟨bytes', log, hread, hlines⟩ := exists_readLine_eq h.input
  exact ⟨bytes', _, hread, ⟨rfl, h.outputFault⟩, hlines, rfl⟩

theorem Open.write (h : s.Open bytes) (text : String) :
    s.write text = (.ok (), { s with output := s.output ++ text }) := by
  simp [Streams.write, h.outputFault]

/-- A dialogue comes to what it comes to on a script of the lines, and what it writes there is
written here. -/
theorem Open.run (h : s.Open bytes) (d : Dialogue α) :
    ∃ s', d.run console s = (.ok (valueOn d (Text.lines bytes)), s') ∧
      s'.output = s.output ++ String.join (textsWritten (eventsOn d (Text.lines bytes))) := by
  induction d generalizing s bytes with
  | done a => exact ⟨s, rfl, by simp [eventsOn, textsWritten]⟩
  | readLine next ih =>
    obtain ⟨bytes', s', hread, hopen, hlines, hsame⟩ := h.readLine
    obtain ⟨s'', hrun, houtput⟩ := ih (Text.lines bytes).head? hopen
    rw [hlines] at hrun houtput
    refine ⟨s'', ?_, ?_⟩
    · simp only [Dialogue.run, console, hread]
      exact hrun
    · rw [houtput, hsame]
      simp [eventsOn, textsWritten, Event.text?]
  | write text next ih =>
    obtain ⟨s', hrun, houtput⟩ :=
      ih () (s := { s with output := s.output ++ text }) ⟨h.input, h.outputFault⟩
    refine ⟨s', ?_, ?_⟩
    · simp only [Dialogue.run, console, h.write text]
      exact hrun
    · rw [houtput]
      simp [eventsOn, textsWritten, Event.text?, String.append_assoc]
  | note entry next ih =>
    obtain ⟨s', hrun, houtput⟩ := ih () (h.note entry)
    refine ⟨s', hrun, ?_⟩
    rw [houtput, output_note]
    rfl

end ConsoleHost.Streams
