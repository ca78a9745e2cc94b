import ConsoleHost.Host.Operation
import ConsoleHost.Proofs.Console.Faults

/-! Isolation: a console call that fails spoils the operation that makes it, and no other. -/
namespace ConsoleHost

open Recorder

namespace Field

theorem fill_onlyWrites (n : Nat) : (fill n).OnlyWrites := by
  induction n using fill_induction with
  | zero =>
    rw [fill_zero]
    trivial
  | rest n h0 hlt =>
    rw [fill_of_lt h0 hlt]
    trivial
  | add n ih =>
    rw [fill_add_chunk]
    exact ih

theorem write_onlyWrites (text : String) (width : Int32) : (write text width).OnlyWrites := by
  unfold write
  dsimp only
  split
  · exact fill_onlyWrites _
  · exact (fill_onlyWrites _).bind fun _ => trivial

end Field

namespace Recorder

variable {r : Recorder} {events rest : List Event}

/-- The recorder after some calls, whose events have been taken off it. -/
def past (r : Recorder) (events : List Event) : Recorder := (r.afterAll events).takeEvents.2

/-- All calls that can fail have been made. -/
def Spent (r : Recorder) : Prop := r.faults.read ≤ r.reads ∧ r.faults.write ≤ r.writes

theorem Spent.spares (h : r.Spent) (events : List Event) : r.Spares events :=
  ⟨.inl h.1, .inl h.2⟩

@[simp] theorem events_past : (r.past events).events = #[] := rfl

@[simp] theorem faults_past : (r.past events).faults = r.faults := r.faults_afterAll events

@[simp] theorem error_past : (r.past events).error = r.error := by simp [error]

theorem reads_past : (r.past events).reads = r.reads + readCount events :=
  r.reads_afterAll events

theorem writes_past : (r.past events).writes = r.writes + writeCount events :=
  r.writes_afterAll events

theorem script_past_congr {s : Recorder} (h : r.script = s.script) :
    (r.past events).script = (s.past events).script := by
  change (r.afterAll events).script = (s.afterAll events).script
  induction events generalizing r s with
  | nil => exact h
  | cons e rest ih =>
    refine ih (r := r.after e) (s := s.after e) ?_
    cases e <;> simp [after, h]

theorem past_nil (hr : r.events = #[]) : r.past [] = r := by
  obtain ⟨faults, script, reads, writes, events⟩ := r
  cases hr
  rfl

theorem past_past (r : Recorder) (events rest : List Event) :
    (r.past events).past rest = r.past (events ++ rest) := by
  have htaken (s : Recorder) : s.takeEvents.2.past rest = s.past rest := by
    induction rest generalizing s with
    | nil => rfl
    | cons e rest ih =>
      have he : (s.takeEvents.2.after e).takeEvents.2 = (s.after e).takeEvents.2 := by
        cases e <;> rfl
      calc (s.takeEvents.2.after e).past rest
          = (s.takeEvents.2.after e).takeEvents.2.past rest := (ih _).symm
        _ = (s.after e).takeEvents.2.past rest := by rw [he]
        _ = (s.after e).past rest := ih _
  calc (r.past events).past rest
      = (r.afterAll events).past rest := htaken _
    _ = r.past (events ++ rest) := by simp [past, afterAll, List.foldl_append]

theorem spares_past : r.Spares (events ++ rest) ↔ r.Spares events ∧ (r.past events).Spares rest :=
  spares_append

theorem input_past (h : ∀ e ∈ events, e.isFailed = false) (r : Recorder) :
    (r.past events).script.input = r.script.input.drop (readCount events) := input_afterAll h r

end Recorder

namespace Host

/-- What is seen of an operation: the calls it makes of the console, its answer, and what its buffer
holds afterwards, if it has one. -/
structure Step where
  events : List Event
  answer : Except HostError Reply
  buffer : Option (List UInt8)

/-- The step as it is when a write fails after some of its calls. -/
def Step.cutAt (step : Step) (pre : List Event) (text : String) (e : HostError) : Step :=
  { step with events := pre ++ [.writeFailed text], answer := .error e }

/-- The calls made in some steps. -/
def callsOf (steps : List Step) : List Event := steps.flatMap (·.events)

@[simp] theorem callsOf_cons (step : Step) (steps : List Step) :
    callsOf (step :: steps) = step.events ++ callsOf steps := rfl

theorem callsOf_append (steps later : List Step) :
    callsOf (steps ++ later) = callsOf steps ++ callsOf later := List.flatMap_append

namespace Operation

variable {op : Operation} {ops before : List Operation} {r : Recorder} {events : List Event}

/-- The buffer that an operation reads a line into. -/
def buffer? : Operation → Option (List UInt8)
  | readln buffer => some buffer
  | _ => none

def isRead (op : Operation) : Bool := op.buffer?.isSome

/-- Only a line that has been read changes the buffer. -/
def bufferAfter (op : Operation) : Except HostError Reply → Option (List UInt8)
  | .ok (.line _ buffer) => some buffer
  | .ok .none | .error _ => op.buffer?

/-- Performs an operation and takes the events off the console. -/
def step (op : Operation) (r : Recorder) : Step × Recorder :=
  let (answer, r) := op.perform.run console r
  (⟨r.takeEvents.1, answer, op.bufferAfter answer⟩, r.takeEvents.2)

/-- Performs operations one after another, whether they fail or not. -/
def performAll : List Operation → Recorder → List Step × Recorder
  | [], r => ([], r)
  | op :: rest, r =>
    ((op.step r).1 :: (performAll rest (op.step r).2).1, (performAll rest (op.step r).2).2)

/-- The steps of operations that are performed on a new console. -/
def stepsOf (ops : List Operation) (lines : List String) (faults : Faults) : List Step :=
  (performAll ops (.start lines faults)).1

/-- The step of an operation, with these lines to read, if no call fails. -/
def soundStep (op : Operation) (lines : List String) : Step :=
  ⟨eventsOn op.perform lines, .ok (valueOn op.perform lines),
    op.bufferAfter (.ok (valueOn op.perform lines))⟩

def soundSteps : List Operation → List String → List Step
  | [], _ => []
  | op :: rest, lines =>
    op.soundStep lines ::
      soundSteps rest (lines.drop (readCount (op.soundStep lines).events))

theorem perform_of_not_read (h : op.isRead = false) :
    ∃ d : Dialogue Unit, d.OnlyWrites ∧ op.perform = d.bind fun _ => .done .none := by
  cases op with
  | readln => cases h
  | print | println | ln | printInt | printlnInt | printReal | printlnReal =>
    refine ⟨_, ?_, rfl⟩
    trivial
  | printIntPad | printRealPad =>
    refine ⟨_, ?_, rfl⟩
    exact Field.write_onlyWrites _ _

theorem eventsOn_of_read (h : op.isRead = true) (lines : List String) :
    eventsOn op.perform lines = [.read lines.head?] := by
  cases op with
  | readln => rfl
  | print | println | ln | printInt | printlnInt | printReal | printlnReal | printIntPad
  | printRealPad => cases h

theorem readCount_soundStep (op : Operation) (lines : List String) :
    readCount (op.soundStep lines).events = if op.isRead then 1 else 0 := by
  cases h : op.isRead with
  | true => simp [soundStep, eventsOn_of_read h, readCount, Event.isRead]
  | false =>
    obtain ⟨d, hd, hp⟩ := perform_of_not_read h
    have hw : op.perform.OnlyWrites := by
      rw [hp]
      exact hd.bind fun _ => trivial
    exact readCount_eventsOn hw lines

theorem buffer_soundStep (h : op.isRead = false) (lines : List String) :
    (op.soundStep lines).buffer = op.buffer? := by
  obtain ⟨d, -, hp⟩ := perform_of_not_read h
  rw [soundStep, hp, valueOn_bind_done]
  rfl

theorem readCount_soundSteps (ops : List Operation) (lines : List String) :
    readCount (callsOf (soundSteps ops lines)) = ops.countP (·.isRead) := by
  induction ops generalizing lines with
  | nil => rfl
  | cons op rest ih =>
    have hrest := ih (lines.drop (readCount (op.soundStep lines).events))
    have hfirst := readCount_soundStep op lines
    simp only [soundSteps, callsOf, List.flatMap_cons, readCount, List.countP_append,
      List.countP_cons] at hrest hfirst ⊢
    omega

theorem soundSteps_append (before after : List Operation) (lines : List String) :
    soundSteps (before ++ after) lines = soundSteps before lines ++
      soundSteps after (lines.drop (before.countP (·.isRead))) := by
  induction before generalizing lines with
  | nil => rfl
  | cons op rest ih =>
    simp only [List.cons_append, soundSteps, ih, List.drop_drop, readCount_soundStep,
      List.countP_cons, Nat.add_comm]

theorem performAll_append (before after : List Operation) (r : Recorder) :
    performAll (before ++ after) r =
      ((performAll before r).1 ++ (performAll after (performAll before r).2).1,
        (performAll after (performAll before r).2).2) := by
  induction before generalizing r with
  | nil => rfl
  | cons op rest ih => simp only [List.cons_append, performAll, ih]

theorem step_of_run {answer : Except HostError Reply} (hr : r.events = #[])
    (h : op.perform.run console r = (answer, r.afterAll events)) :
    op.step r = (⟨events, answer, op.bufferAfter answer⟩, r.past events) := by
  simp [step, h, past, takeEvents, events_afterAll, hr]

theorem step_of_spares (hr : r.events = #[])
    (h : r.Spares (op.soundStep r.script.input).events) :
    op.step r = (op.soundStep r.script.input, r.past (op.soundStep r.script.input).events) :=
  step_of_run hr (run_of_spares h)

theorem input_soundStep (op : Operation) (r : Recorder) :
    (r.past (op.soundStep r.script.input).events).script.input =
      r.script.input.drop (readCount (op.soundStep r.script.input).events) :=
  input_past (isFailed_eventsOn op.perform _) r

/-- Operations none of whose calls fails go as they go without faults. -/
theorem performAll_of_spares (hr : r.events = #[])
    (h : r.Spares (callsOf (soundSteps ops r.script.input))) :
    performAll ops r =
      (soundSteps ops r.script.input, r.past (callsOf (soundSteps ops r.script.input))) := by
  induction ops generalizing r with
  | nil => exact Prod.ext rfl (past_nil hr).symm
  | cons op rest ih =>
    rw [soundSteps, callsOf_cons, spares_past, ← input_soundStep] at h
    rw [performAll, step_of_spares hr h.1, ih events_past h.2, input_soundStep, past_past]
    rfl

theorem length_soundSteps (ops : List Operation) (lines : List String) :
    (soundSteps ops lines).length = ops.length := by
  induction ops generalizing lines with
  | nil => rfl
  | cons op rest ih => exact congrArg (· + 1) (ih _)

theorem isFailed_soundSteps (ops : List Operation) (lines : List String) :
    ∀ e ∈ callsOf (soundSteps ops lines), e.isFailed = false := by
  induction ops generalizing lines with
  | nil => simp [soundSteps, callsOf]
  | cons op rest ih =>
    intro e he
    rw [soundSteps, callsOf_cons, List.mem_append] at he
    exact he.elim (isFailed_eventsOn op.perform lines e) (ih _ e)

/-- Once the write that fails is made, no other call fails. -/
theorem spent_of_failed_write {text : String} (hread : r.faults.read ≤ r.reads)
    (hn : ¬ r.Spares (events ++ [.wrote text])) :
    (r.past (events ++ [.writeFailed text])).Spent := by
  have hreads := r.reads_afterAll (events ++ [.writeFailed text])
  have hwrites := r.writes_afterAll (events ++ [.writeFailed text])
  simp only [Spares, readCount, writeCount, List.countP_append, List.countP_singleton,
    Event.isRead] at hreads hwrites hn
  change (r.afterAll _).faults.read ≤ (r.afterAll _).reads ∧
    (r.afterAll _).faults.write ≤ (r.afterAll _).writes
  rw [faults_afterAll]
  simp at hreads hwrites hn
  omega

/-- A failing write ends its operation, which has read nothing. -/
theorem step_of_failed_write (hr : r.events = #[]) (hread : r.faults.read ≤ r.reads)
    (h : ¬ r.Spares (op.soundStep r.script.input).events) :
    ∃ pre text rest r', (op.soundStep r.script.input).events = pre ++ .wrote text :: rest ∧
      r.Spares pre ∧ ¬ r.Spares (pre ++ [.wrote text]) ∧
      op.step r = ((op.soundStep r.script.input).cutAt pre text r.error, r') ∧
      r'.events = #[] ∧ r'.Spent ∧
      r'.script.input = r.script.input.drop (readCount (op.soundStep r.script.input).events) := by
  obtain ⟨pre, f, ⟨e, rest, he, hf, hs, hn⟩, hrun⟩ := run_of_not_spares h
  cases hf with
  | read line =>
    exact absurd ⟨.inl hread, by simpa [writeCount, Event.isRead] using hs.2⟩ hn
  | write text =>
    have hop : op.isRead = false := by
      rw [Bool.eq_false_iff]
      intro hop
      rw [eventsOn_of_read hop] at he
      cases pre <;> simp at he
    have hnone : readCount (op.soundStep r.script.input).events = 0 := by
      rw [readCount_soundStep, hop]
      rfl
    have hpre : readCount pre = 0 := by
      rw [soundStep, he, readCount, List.countP_append] at hnone
      exact Nat.eq_zero_of_add_eq_zero_right hnone
    have hok : ∀ e ∈ pre, e.isFailed = false := fun e hmem =>
      isFailed_eventsOn op.perform r.script.input e (by simp [he, hmem])
    refine ⟨pre, text, rest, _, he, hs, hn, ?_, rfl, spent_of_failed_write hread hn, ?_⟩
    · rw [step_of_run hr hrun, Step.cutAt, buffer_soundStep hop]
      rfl
    · change (r.afterAll (pre ++ [.writeFailed text])).script.input = _
      rw [script_afterAll_failed (.write text), input_afterAll hok, hpre, hnone]

/-- The step that makes the write that fails is cut there, and all others are the same. -/
theorem performAll_of_failed_write (hr : r.events = #[]) (hread : r.faults.read ≤ r.reads)
    (h : ¬ r.Spares (callsOf (soundSteps ops r.script.input))) :
    ∃ steps step later pre text rest,
      soundSteps ops r.script.input = steps ++ step :: later ∧
      step.events = pre ++ .wrote text :: rest ∧
      r.Spares (callsOf steps ++ pre) ∧ ¬ r.Spares (callsOf steps ++ pre ++ [.wrote text]) ∧
      (performAll ops r).1 = steps ++ step.cutAt pre text r.error :: later := by
  induction ops generalizing r with
  | nil => exact absurd r.spares_nil h
  | cons op ops ih =>
    by_cases hs : r.Spares (op.soundStep r.script.input).events
    · rw [soundSteps, callsOf_cons, spares_past, ← input_soundStep] at h
      have hread' : (r.past (op.soundStep r.script.input).events).faults.read ≤
          (r.past (op.soundStep r.script.input).events).reads := by
        rw [faults_past, reads_past]
        omega
      obtain ⟨steps, step, later, pre, text, rest, hsteps, he, hpre, hn, hall⟩ :=
        ih events_past hread' fun hrest => h ⟨hs, hrest⟩
      refine ⟨op.soundStep r.script.input :: steps, step, later, pre, text, rest, ?_, he, ?_, ?_, ?_⟩
      · rw [soundSteps, ← input_soundStep, hsteps]
        rfl
      · rw [callsOf_cons, List.append_assoc, spares_past]
        exact ⟨hs, hpre⟩
      · rw [callsOf_cons, List.append_assoc, List.append_assoc, spares_past, ← List.append_assoc]
        exact fun hboth => hn hboth.2
      · rw [performAll, step_of_spares hr hs, hall, error_past]
        rfl
    · obtain ⟨pre, text, rest, r', he, hpre, hn, hstep, hr', hspent, hinput⟩ :=
        step_of_failed_write hr hread hs
      refine ⟨[], op.soundStep r.script.input, soundSteps ops r'.script.input, pre, text, rest,
        by rw [hinput]; rfl, he, hpre, hn, ?_⟩
      rw [performAll, hstep, performAll_of_spares hr' (hspent.spares _)]
      rfl

/-- A failing read leaves the buffer and the lines as they are. -/
theorem step_of_failed_read (hr : r.events = #[]) (h : r.reads + 1 = r.faults.read)
    (buffer : List UInt8) :
    (readln buffer).step r =
      (⟨[.readFailed], .error r.error, some buffer⟩, r.past [.readFailed]) := by
  have hn : ¬ r.Spares (eventsOn (readln buffer).perform r.script.input) :=
    fun hs => spares_read.mp hs h
  obtain ⟨pre, f, ⟨e, rest, he, hf, -⟩, hrun⟩ := run_of_not_spares hn
  rw [eventsOn_of_read rfl] at he
  cases pre with
  | nil =>
    cases he
    cases hf
    exact step_of_run hr hrun
  | cons => simp at he

/-- With a read that fails, all other steps are those of the operations without that read, none of
which fails, and so are the lines that are left. -/
theorem performAll_of_failed_read (hr : r.events = #[]) (hwrite : r.faults.write ≤ r.writes)
    (h : r.reads + before.countP (·.isRead) + 1 = r.faults.read) (buffer : List UInt8)
    (after : List Operation) :
    (performAll (before ++ readln buffer :: after) r).1 =
        soundSteps before r.script.input ++ ⟨[.readFailed], .error r.error, some buffer⟩ ::
          soundSteps after (r.script.input.drop (before.countP (·.isRead))) ∧
      (performAll (before ++ readln buffer :: after) r).2.script =
        (r.past (callsOf (soundSteps (before ++ after) r.script.input))).script := by
  have hs : r.Spares (callsOf (soundSteps before r.script.input)) := by
    rw [Spares, readCount_soundSteps]
    omega
  -- the console when the read fails, and what is left on it
  obtain ⟨s, hmiddle⟩ : ∃ s, s = r.past (callsOf (soundSteps before r.script.input)) := ⟨_, rfl⟩
  have hinput : s.script.input = r.script.input.drop (before.countP (·.isRead)) := by
    rw [hmiddle, input_past (isFailed_soundSteps before _), readCount_soundSteps]
  have hreads : s.reads + 1 = s.faults.read := by
    rw [hmiddle, reads_past, faults_past, readCount_soundSteps]
    exact h
  have hwrites : s.faults.write ≤ s.writes := by
    rw [hmiddle, writes_past, faults_past]
    omega
  have hspent : (s.past [.readFailed]).Spent := ⟨Nat.le_of_eq hreads.symm, hwrites⟩
  have hrun : performAll (before ++ readln buffer :: after) r =
      (soundSteps before r.script.input ++ ⟨[.readFailed], .error r.error, some buffer⟩ ::
          soundSteps after s.script.input,
        (s.past [.readFailed]).past (callsOf (soundSteps after s.script.input))) := by
    have hread := step_of_failed_read (hmiddle ▸ events_past) hreads buffer
    have hrest : performAll after (s.past [.readFailed]) = _ :=
      performAll_of_spares events_past (hspent.spares _)
    have herror : s.error = r.error := by rw [hmiddle, error_past]
    rw [performAll_append, performAll_of_spares hr hs, ← hmiddle, performAll, hread, hrest, herror]
    rfl
  rw [hrun, hinput]
  refine ⟨rfl, ?_⟩
  rw [soundSteps_append, callsOf_append, ← past_past, ← hmiddle]
  exact script_past_congr rfl

theorem performAll_sound (ops : List Operation) (lines : List String) (message : String) :
    performAll ops (.start lines ⟨0, 0, message⟩) =
      (soundSteps ops lines, (start lines ⟨0, 0, message⟩).past (callsOf (soundSteps ops lines))) :=
  performAll_of_spares rfl (Spent.spares ⟨Nat.le_refl 0, Nat.le_refl 0⟩ _)

theorem exists_read {j : Nat} (hj : 0 < j) (h : j ≤ ops.countP (·.isRead)) :
    ∃ before buffer after, ops = before ++ readln buffer :: after ∧
      before.countP (·.isRead) + 1 = j := by
  induction ops generalizing j with
  | nil =>
    rw [List.countP_nil] at h
    omega
  | cons op rest ih =>
    rw [List.countP_cons] at h
    cases hop : op.isRead with
    | false =>
      obtain ⟨before, buffer, after, rfl, hb⟩ := ih hj (by simpa [hop] using h)
      exact ⟨op :: before, buffer, after, rfl, by simpa [hop] using hb⟩
    | true =>
      obtain ⟨buffer, rfl⟩ : ∃ buffer, op = readln buffer := by
        cases op <;> first | exact ⟨_, rfl⟩ | cases hop
      by_cases hfirst : j = 1
      · exact ⟨[], buffer, rest, rfl, hfirst.symm⟩
      · rw [hop, if_pos rfl] at h
        obtain ⟨before, buffer', after, rfl, hb⟩ := ih (j := j - 1) (by omega) (by omega)
        refine ⟨readln buffer :: before, buffer', after, rfl, ?_⟩
        rw [List.countP_cons, hop, if_pos rfl]
        omega

/-- A call that fails changes the step of the operation that makes it, and no other. If the k-th
write fails, its step is cut there; with fewer writes, nothing changes. If the j-th read fails, its
buffer and the lines stay as they are, and the other steps are those of the operations without it. -/
theorem stepsOf_isolates (ops : List Operation) (lines : List String) (message : String) :
    (∀ k,
      ((k = 0 ∨ writeCount (callsOf (stepsOf ops lines ⟨0, 0, message⟩)) < k) ∧
          stepsOf ops lines ⟨0, k, message⟩ = stepsOf ops lines ⟨0, 0, message⟩) ∨
        ∃ steps step later pre text rest,
          stepsOf ops lines ⟨0, 0, message⟩ = steps ++ step :: later ∧
          step.events = pre ++ .wrote text :: rest ∧
          writeCount (callsOf steps) + writeCount pre + 1 = k ∧
          stepsOf ops lines ⟨0, k, message⟩ =
            steps ++ step.cutAt pre text (.io message) :: later) ∧
    ∀ j,
      ((j = 0 ∨ ops.countP (·.isRead) < j) ∧
          stepsOf ops lines ⟨j, 0, message⟩ = stepsOf ops lines ⟨0, 0, message⟩) ∨
        ∃ before buffer after steps later,
          ops = before ++ readln buffer :: after ∧ before.countP (·.isRead) + 1 = j ∧
          stepsOf (before ++ after) lines ⟨0, 0, message⟩ = steps ++ later ∧
          steps.length = before.length ∧
          stepsOf ops lines ⟨j, 0, message⟩ =
            steps ++ ⟨[.readFailed], .error (.io message), some buffer⟩ :: later ∧
          (performAll ops (.start lines ⟨j, 0, message⟩)).2.script =
            (performAll (before ++ after) (.start lines ⟨0, 0, message⟩)).2.script := by
  simp only [stepsOf, performAll_sound]
  constructor
  · intro k
    by_cases hs : (start lines ⟨0, k, message⟩).Spares (callsOf (soundSteps ops lines))
    · refine .inl ⟨?_, congrArg Prod.fst (performAll_of_spares rfl hs)⟩
      simpa [Spares, start] using hs
    · obtain ⟨steps, step, later, pre, text, rest, hsteps, he, hpre, hn, hall⟩ :=
        performAll_of_failed_write rfl (Nat.le_refl 0) hs
      refine .inr ⟨steps, step, later, pre, text, rest, hsteps, he, ?_, hall⟩
      simp [Spares, start, writeCount, List.countP_append, Event.isRead] at hpre hn ⊢
      omega
  · intro j
    by_cases hj : j = 0 ∨ ops.countP (·.isRead) < j
    · have hs : (start lines ⟨j, 0, message⟩).Spares (callsOf (soundSteps ops lines)) := by
        simpa [Spares, start, readCount_soundSteps] using hj
      exact .inl ⟨hj, congrArg Prod.fst (performAll_of_spares rfl hs)⟩
    · have hle : j ≤ ops.countP (·.isRead) := by omega
      obtain ⟨before, buffer, after, rfl, hb⟩ := exists_read (by omega) hle
      have hnth : (start lines ⟨j, 0, message⟩).reads + before.countP (·.isRead) + 1 =
          (start lines ⟨j, 0, message⟩).faults.read := by
        simpa [start] using hb
      obtain ⟨hsteps, hscript⟩ :=
        performAll_of_failed_read rfl (Nat.le_refl 0) hnth buffer after
      exact .inr ⟨before, buffer, after, _, _, rfl, hb, soundSteps_append before after lines,
        length_soundSteps before lines, hsteps, hscript.trans (script_past_congr rfl)⟩

example : stepsOf [.printIntPad 7 3, .ln] [] ⟨0, 2, "full"⟩ =
    [⟨[.wrote "  ", .writeFailed "7"], .error (.io "full"), none⟩,
      ⟨[.wrote "\n"], .ok .none, none⟩] := by
  cbv

end Operation
end Host
end ConsoleHost
