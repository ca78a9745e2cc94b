import ConsoleHost.Console.Recorder
import ConsoleHost.Proofs.Console.Dialogues

/-! Recording consoles with and without faults: a dialogue goes the same way on both up to the first
call that fails, and there it ends. -/
namespace ConsoleHost.Recorder

variable {α : Type} {d d' : Dialogue α} {r : Recorder} {e f : Event} {before events : List Event}
  {line : Option String} {text : String}

namespace Event

def isRead : Event → Bool
  | read _ | readFailed => true
  | wrote _ | writeFailed _ => false

def isFailed : Event → Bool
  | readFailed | writeFailed _ => true
  | read _ | wrote _ => false

/-- A call that does not fail, and what the same call is recorded as if it does. -/
inductive Fails : Event → Event → Prop where
  | read (line : Option String) : Fails (read line) readFailed
  | write (text : String) : Fails (wrote text) (writeFailed text)

theorem Fails.isFailed_eq (h : Fails e f) : e.isFailed = false ∧ f.isFailed = true := by
  cases h <;> exact ⟨rfl, rfl⟩

end Event

def readCount (events : List Event) : Nat := events.countP (·.isRead)

def writeCount (events : List Event) : Nat := events.countP (!·.isRead)

/-- The recorder after one more call. -/
def after (r : Recorder) : Event → Recorder
  | .read line =>
    { r with
      reads := r.reads + 1
      script := r.script.readLine.2
      events := r.events.push (.read line) }
  | .readFailed => { r with reads := r.reads + 1, events := r.events.push .readFailed }
  | .wrote text =>
    { r with
      writes := r.writes + 1
      script := r.script.write text
      events := r.events.push (.wrote text) }
  | .writeFailed text =>
    { r with writes := r.writes + 1, events := r.events.push (.writeFailed text) }

def afterAll (r : Recorder) (events : List Event) : Recorder := events.foldl after r

/-- The same recorder with no call that fails. -/
def sound (r : Recorder) : Recorder := { r with faults := ⟨0, 0, r.faults.message⟩ }

/-- None of the calls that come next, with these events, is one that fails. -/
def Spares (r : Recorder) (events : List Event) : Prop :=
  (r.faults.read ≤ r.reads ∨ r.reads + readCount events < r.faults.read) ∧
    (r.faults.write ≤ r.writes ∨ r.writes + writeCount events < r.faults.write)

@[simp] theorem faults_after : (r.after e).faults = r.faults := by cases e <;> rfl

@[simp] theorem events_after : (r.after e).events = r.events.push e := by cases e <;> rfl

theorem events_afterAll (r : Recorder) (events : List Event) :
    (r.afterAll events).events.toList = r.events.toList ++ events := by
  induction events generalizing r with
  | nil => simp [afterAll]
  | cons e rest ih =>
    have h := ih (r.after e)
    simpa [afterAll] using h

@[simp] theorem faults_afterAll (r : Recorder) (events : List Event) :
    (r.afterAll events).faults = r.faults := by
  induction events generalizing r with
  | nil => rfl
  | cons e rest ih => exact (ih (r.after e)).trans faults_after

theorem reads_afterAll (r : Recorder) (events : List Event) :
    (r.afterAll events).reads = r.reads + readCount events := by
  induction events generalizing r with
  | nil => rfl
  | cons e rest ih =>
    have h := ih (r.after e)
    cases e <;> simp_all [afterAll, after, readCount, Event.isRead] <;> omega

theorem writes_afterAll (r : Recorder) (events : List Event) :
    (r.afterAll events).writes = r.writes + writeCount events := by
  induction events generalizing r with
  | nil => rfl
  | cons e rest ih =>
    have h := ih (r.after e)
    cases e <;> simp_all [afterAll, after, writeCount, Event.isRead] <;> omega

theorem input_afterAll (h : ∀ e ∈ events, e.isFailed = false) (r : Recorder) :
    (r.afterAll events).script.input = r.script.input.drop (readCount events) := by
  induction events generalizing r with
  | nil => rfl
  | cons e rest ih =>
    have hr := ih (fun f hf => h f (by simp [hf])) (r.after e)
    have he := h e (by simp)
    cases e with
    | read line =>
      simpa [afterAll, after, Script.readLine, readCount, Event.isRead] using hr
    | wrote text => simpa [afterAll, after, Script.write, readCount, Event.isRead] using hr
    | readFailed => cases he
    | writeFailed text => cases he

/-- A failed call takes no line and outputs nothing. -/
theorem script_afterAll_failed (hf : e.Fails f) (r : Recorder) :
    (r.afterAll (events ++ [f])).script = (r.afterAll events).script := by
  cases hf <;> simp [afterAll, after]

theorem spares_nil (r : Recorder) : r.Spares [] := by
  simp only [Spares, readCount, writeCount, List.countP_nil]
  omega

theorem spares_cons : r.Spares (e :: events) ↔ r.Spares [e] ∧ (r.after e).Spares events := by
  cases e <;> simp [Spares, readCount, writeCount, after, Event.isRead] <;> omega

theorem spares_append {rest : List Event} :
    r.Spares (events ++ rest) ↔ r.Spares events ∧ (r.afterAll events).Spares rest := by
  induction events generalizing r with
  | nil => simp [afterAll, spares_nil]
  | cons e events ih =>
    have hcons : r.Spares (e :: events) ↔ r.Spares [e] ∧ (r.after e).Spares events := spares_cons
    rw [List.cons_append, spares_cons, ih, hcons, and_assoc]
    rfl

theorem Spares.of_append {rest : List Event} (h : r.Spares (events ++ rest)) : r.Spares events :=
  (spares_append.mp h).1

theorem spares_sound (events : List Event) : r.sound.Spares events :=
  ⟨.inl (Nat.zero_le _), .inl (Nat.zero_le _)⟩

theorem spares_read : r.Spares [.read line] ↔ r.reads + 1 ≠ r.faults.read := by
  simp [Spares, readCount, writeCount, Event.isRead]
  omega

theorem spares_wrote : r.Spares [.wrote text] ↔ r.writes + 1 ≠ r.faults.write := by
  simp [Spares, readCount, writeCount, Event.isRead]
  omega

/-- Of these events `before` are those before the first call that fails, and `f` is what that call
comes to. -/
def Cut (r : Recorder) (events before : List Event) (f : Event) : Prop :=
  ∃ e rest, events = before ++ e :: rest ∧ e.Fails f ∧ r.Spares before ∧ ¬ r.Spares (before ++ [e])

theorem Cut.head (hs : ¬ r.Spares [e]) (hf : e.Fails f) : r.Cut (e :: events) [] f :=
  ⟨e, events, rfl, hf, r.spares_nil, hs⟩

theorem Cut.cons (hs : r.Spares [e]) (h : (r.after e).Cut events before f) :
    r.Cut (e :: events) (e :: before) f := by
  obtain ⟨e', rest, he, hf, hb, hn⟩ := h
  refine ⟨e', rest, by rw [he, List.cons_append], hf, spares_cons.mpr ⟨hs, hb⟩, ?_⟩
  intro h
  rw [List.cons_append, spares_cons] at h
  exact hn h.2

theorem Cut.not_spares (h : r.Cut events before f) : ¬ r.Spares events := by
  obtain ⟨e, rest, he, -, -, hn⟩ := h
  intro hs
  rw [he, List.append_cons] at hs
  exact hn hs.of_append

theorem readLine_of_spares (h : r.Spares [.read line]) :
    r.readLine = (.ok r.script.readLine.1, r.after (.read r.script.readLine.1)) :=
  if_neg (spares_read.mp h)

theorem readLine_of_not_spares (h : ¬ r.Spares [.read line]) :
    r.readLine = (.error r.error, r.after .readFailed) := by
  rw [spares_read, ne_eq, Decidable.not_not] at h
  exact if_pos h

theorem write_of_spares (h : r.Spares [.wrote text]) :
    r.write text = (.ok (), r.after (.wrote text)) :=
  if_neg (spares_wrote.mp h)

theorem write_of_not_spares (h : ¬ r.Spares [.wrote text]) :
    r.write text = (.error r.error, r.after (.writeFailed text)) := by
  rw [spares_wrote, ne_eq, Decidable.not_not] at h
  exact if_pos h

/-- A read gives the first of the lines that are left, and takes it. -/
theorem readLine_ok {r' : Recorder} (h : r.readLine = (.ok line, r')) :
    line = r.script.input.head? ∧ r'.script = ⟨r.script.input.tail, r.script.output⟩ ∧
      r'.events = r.events.push (.read line) := by
  by_cases hs : r.Spares [.read line]
  · rw [readLine_of_spares hs] at h
    cases h
    exact ⟨rfl, rfl, rfl⟩
  · rw [readLine_of_not_spares hs] at h
    cases h

theorem readLine_error {r' : Recorder} {error : HostError} (h : r.readLine = (.error error, r')) :
    r'.script = r.script ∧ r'.events = r.events.push .readFailed := by
  by_cases hs : r.Spares [.read none]
  · rw [readLine_of_spares hs] at h
    cases h
  · rw [readLine_of_not_spares hs] at h
    cases h
    exact ⟨rfl, rfl⟩

theorem write_ok {r' : Recorder} (h : r.write text = (.ok (), r')) :
    r'.script = ⟨r.script.input, r.script.output ++ text⟩ ∧
      r'.events = r.events.push (.wrote text) := by
  by_cases hs : r.Spares [.wrote text]
  · rw [write_of_spares hs] at h
    cases h
    exact ⟨rfl, rfl⟩
  · rw [write_of_not_spares hs] at h
    cases h

theorem write_error {r' : Recorder} {error : HostError} (h : r.write text = (.error error, r')) :
    r'.script = r.script ∧ r'.events = r.events.push (.writeFailed text) := by
  by_cases hs : r.Spares [.wrote text]
  · rw [write_of_spares hs] at h
    cases h
  · rw [write_of_not_spares hs] at h
    cases h
    exact ⟨rfl, rfl⟩

/-- What a dialogue comes to, with these lines to read, if no call fails. -/
def valueOn : Dialogue α → List String → α
  | .done a, _ => a
  | .readLine next, lines => valueOn (next lines.head?) lines.tail
  | .write _ next, lines => valueOn (next ()) lines
  | .note _ next, lines => valueOn (next ()) lines

/-- The calls that it makes then. -/
def eventsOn : Dialogue α → List String → List Event
  | .done _, _ => []
  | .readLine next, lines => .read lines.head? :: eventsOn (next lines.head?) lines.tail
  | .write text next, lines => .wrote text :: eventsOn (next ()) lines
  | .note _ next, lines => eventsOn (next ()) lines

theorem isFailed_eventsOn (d : Dialogue α) (lines : List String) :
    ∀ e ∈ eventsOn d lines, e.isFailed = false := by
  induction d generalizing lines with
  | done a => simp [eventsOn]
  | readLine next ih => simpa [eventsOn, Event.isFailed] using ih _ _
  | write text next ih => simpa [eventsOn, Event.isFailed] using ih () lines
  | note entry next ih => exact ih () lines

theorem valueOn_bind_done {β : Type} (d : Dialogue α) (b : β) (lines : List String) :
    valueOn (d.bind fun _ => .done b) lines = b := by
  induction d generalizing lines with
  | done a => rfl
  | readLine next ih => exact ih _ _
  | write text next ih => exact ih () lines
  | note entry next ih => exact ih () lines

theorem readCount_eventsOn (h : d.OnlyWrites) (lines : List String) :
    readCount (eventsOn d lines) = 0 := by
  induction d with
  | done a => rfl
  | readLine next ih => exact h.elim
  | write text next ih => exact ih () h
  | note entry next ih => exact ih () h

/-- Calls that are all spared go as they go without faults. -/
theorem run_of_spares (h : r.Spares (eventsOn d r.script.input)) :
    d.run console r =
      (.ok (valueOn d r.script.input), r.afterAll (eventsOn d r.script.input)) := by
  induction d generalizing r with
  | done a => rfl
  | readLine next ih =>
    rw [eventsOn, spares_cons] at h
    simp only [Dialogue.run, console, readLine_of_spares h.1]
    exact ih _ h.2
  | write text next ih =>
    rw [eventsOn, spares_cons] at h
    simp only [Dialogue.run, console, write_of_spares h.1]
    exact ih () h.2
  | note entry next ih => exact ih () h

/-- Otherwise the first call that is not spared is the last. -/
theorem run_of_not_spares (h : ¬ r.Spares (eventsOn d r.script.input)) :
    ∃ before f, r.Cut (eventsOn d r.script.input) before f ∧
      d.run console r = (.error r.error, r.afterAll (before ++ [f])) := by
  induction d generalizing r with
  | done a => exact absurd r.spares_nil h
  | readLine next ih =>
    rw [eventsOn, spares_cons] at h
    by_cases hs : r.Spares [.read r.script.input.head?]
    · obtain ⟨before, f, hcut, hrun⟩ := ih _ fun hn => h ⟨hs, hn⟩
      refine ⟨_ :: before, f, hcut.cons hs, ?_⟩
      simp only [Dialogue.run, console, readLine_of_spares hs]
      exact hrun
    · refine ⟨[], _, .head hs (.read _), ?_⟩
      simp only [Dialogue.run, console, readLine_of_not_spares hs]
      rfl
  | write text next ih =>
    rw [eventsOn, spares_cons] at h
    by_cases hs : r.Spares [.wrote text]
    · obtain ⟨before, f, hcut, hrun⟩ := ih () fun hn => h ⟨hs, hn⟩
      refine ⟨_ :: before, f, hcut.cons hs, ?_⟩
      simp only [Dialogue.run, console, write_of_spares hs]
      exact hrun
    · refine ⟨[], _, .head hs (.write text), ?_⟩
      simp only [Dialogue.run, console, write_of_not_spares hs]
      rfl
  | note entry next ih => exact ih () h

theorem afterAll_sound (r : Recorder) (events : List Event) :
    r.sound.afterAll events = (r.afterAll events).sound := by
  induction events generalizing r with
  | nil => rfl
  | cons e rest ih =>
    have he : r.sound.after e = (r.after e).sound := by cases e <;> rfl
    rw [afterAll, List.foldl_cons, he]
    exact ih (r.after e)

/-- With faults and without them a dialogue goes the same way if no call fails, and else it is cut
at the first call that does. -/
theorem alike (d : Dialogue α) (r : Recorder) :
    ∃ a events, (∀ e ∈ events, e.isFailed = false) ∧
      d.run console r.sound = (.ok a, (r.afterAll events).sound) ∧
      ((r.Spares events ∧ d.run console r = (.ok a, r.afterAll events)) ∨
        ∃ before f, r.Cut events before f ∧
          d.run console r = (.error r.error, r.afterAll (before ++ [f]))) := by
  refine ⟨valueOn d r.script.input, eventsOn d r.script.input, isFailed_eventsOn d _, ?_, ?_⟩
  · rw [← afterAll_sound]
    exact run_of_spares (spares_sound _)
  · by_cases hs : r.Spares (eventsOn d r.script.input)
    · exact .inl ⟨hs, run_of_spares hs⟩
    · exact .inr (run_of_not_spares hs)

/-- A dialogue fails with nothing but the console's own error. -/
theorem error_of_run {r' : Recorder} {error : HostError} (h : d.run console r = (.error error, r')) :
    error = r.error := by
  obtain ⟨a, events, -, -, ⟨-, heq⟩ | ⟨before, f, -, heq⟩⟩ := alike d r <;> rw [h] at heq <;>
    cases heq
  rfl

/-- A dialogue adds to the events, and leaves those before it as they were. -/
theorem events_run (d : Dialogue α) (r : Recorder) :
    r.events.toList <+: (d.run console r).2.events.toList := by
  obtain ⟨a, events, -, -, ⟨-, heq⟩ | ⟨before, f, -, heq⟩⟩ := alike d r <;>
    rw [heq, events_afterAll] <;> exact List.prefix_append _ _

end ConsoleHost.Recorder
