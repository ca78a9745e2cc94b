import ConsoleHost.Proofs.Console.Fields
import ConsoleHost.Proofs.Host.Storing
import Mathlib

/-! Composition: a call that ends a line is the call that does not and then a newline, and a call
whose text fills its field is the call without a field. -/
namespace ConsoleHost

variable {σ α : Type} {ε : Type}

namespace Console

/-- What a console is asked to do. -/
inductive Call where
  | readLine
  | write (text : String)
  deriving DecidableEq, Repr

/-- The console with a list of all that it is asked to do, in order. -/
def keeping (c : Console ε σ) : Console ε (List Call × σ) where
  readLine s := ((c.readLine s.2).1, s.1 ++ [.readLine], (c.readLine s.2).2)
  write text s := ((c.write text s.2).1, s.1 ++ [.write text], (c.write text s.2).2)
  note entry s := (s.1, c.note entry s.2)

/-- Keeping the list changes nothing else. -/
theorem run_keeping (c : Console ε σ) (d : Dialogue α) (calls : List Call) (s : σ) :
    ∃ more, d.run c.keeping (calls, s) = ((d.run c s).1, calls ++ more, (d.run c s).2) := by
  induction d generalizing calls s with
  | done a => exact ⟨[], by simp [Dialogue.run]⟩
  | readLine next ih =>
    simp only [Dialogue.run, keeping]
    cases c.readLine s with
    | mk result t =>
      cases result with
      | ok line =>
        obtain ⟨more, hmore⟩ := ih line (calls ++ [.readLine]) t
        exact ⟨.readLine :: more, by simpa [keeping] using hmore⟩
      | error e => exact ⟨[.readLine], rfl⟩
  | write text next ih =>
    simp only [Dialogue.run, keeping]
    cases c.write text s with
    | mk result t =>
      cases result with
      | ok =>
        obtain ⟨more, hmore⟩ := ih () (calls ++ [.write text]) t
        exact ⟨.write text :: more, by simpa [keeping] using hmore⟩
      | error e => exact ⟨[.write text], rfl⟩
  | note entry next ih => exact ih () calls (c.note entry s)

/-- Notes leave no trace in the console. -/
def Unlogged (c : Console ε σ) : Prop := ∀ entry s, c.note entry s = s

theorem Unlogged.keeping {c : Console ε σ} (h : c.Unlogged) : c.keeping.Unlogged := by
  rintro entry ⟨calls, s⟩
  exact congrArg (calls, ·) (h entry s)

end Console

/-- A first step and, only if it succeeds, a next one. -/
def andThen (first : Except ε α × σ) (next : σ → Except ε α × σ) : Except ε α × σ :=
  match first with
  | (.ok _, s) => next s
  | (.error e, s) => (.error e, s)

theorem run_bind_eq (c : Console ε σ) (d : Dialogue α) (next : Dialogue α) (s : σ) :
    (d.bind fun _ => next).run c s = andThen (d.run c s) (next.run c) := by
  rw [Dialogue.run_bind]
  cases d.run c s with
  | mk result t => cases result <;> rfl

namespace HostCall

/-- A call that ends a line, and the call that writes the same and does not. -/
inductive EndsLine : HostCall → HostCall → Prop where
  | bytes (offset len : Int32) : EndsLine (println offset len) (print offset len)
  | int (value : Int32) : EndsLine (printlnInt value) (printInt value)
  | real (value : Double) : EndsLine (printlnReal value) (printReal value)

/-- A call whose text is as long as its field or longer, and the call that writes the text. -/
inductive FillsField : HostCall → HostCall → Prop where
  | int (value width : Int32) (h : width.toInt.natAbs ≤ (intText value).length) :
      FillsField (printIntPad value width) (printInt value)
  | real (value : Double) (width : Int32) (h : width.toInt.natAbs ≤ (realText value).length) :
      FillsField (printRealPad value width) (printReal value)

variable {whole part call : HostCall} {s : Store} {c : Console HostError σ} {t : σ} {w : Window}
  {d next : Dialogue Unit} {e : HostError}

theorem printIntPad_eq {value width : Int32} (h : width.toInt.natAbs ≤ (intText value).length) :
    Host.printIntPad value width = Host.printInt value := Field.write_of_columns_le h

theorem printRealPad_eq {value : Double} {width : Int32}
    (h : width.toInt.natAbs ≤ (realText value).length) :
    Host.printRealPad value width = Host.printReal value := Field.write_of_columns_le h

theorem EndsLine.perform_eq (h : EndsLine whole part) (bytes : List UInt8) :
    (whole.operation bytes).perform =
      (part.operation bytes).perform.bind fun _ => Host.Operation.ln.perform := by
  cases h <;> rfl

theorem FillsField.perform_eq (h : FillsField whole part) (bytes : List UInt8) :
    (whole.operation bytes).perform = (part.operation bytes).perform := by
  cases h with
  | int value width h => simp only [operation, Host.Operation.perform, printIntPad_eq h]
  | real value width h => simp only [operation, Host.Operation.perform, printRealPad_eq h]

/-! ### Served calls -/

theorem writing_bind (s : Store) (d next : Dialogue Unit) (c : Console HostError σ) (t : σ) :
    writing s (d.bind fun _ => next) c t = andThen (writing s d c t) (writing s next c) := by
  simp only [writing, run_bind_eq, andThen]
  cases d.run c t with
  | mk result u => cases result <;> rfl

/-- What is served in two steps is served in one. -/
theorem serveOn_of_bind (hu : c.Unlogged)
    (hwhole : whole.serve s = .note (.called whole) fun _ => onConsole s (d.bind fun _ => Host.ln))
    (hpart : part.serve s = .note (.called part) fun _ => onConsole s d) (t : σ) :
    whole.serveOn s c t = andThen (part.serveOn s c t) (ln.serveOn s c) := by
  have hln (u : σ) : ln.serveOn s c u = writing s Host.ln c u := by
    rw [serveOn_of_onConsole rfl, hu]
  rw [serveOn_of_onConsole hwhole, serveOn_of_onConsole hpart, hu, hu, writing_bind]
  exact congrArg (andThen _) (funext fun u => (hln u).symm)

theorem EndsLine.serveOn_eq (h : EndsLine whole part) (hu : c.Unlogged) (s : Store) (t : σ) :
    whole.serveOn s c t = andThen (part.serveOn s c t) (ln.serveOn s c) := by
  cases h with
  | bytes offset len =>
    have hwhole : (println offset len).serve s = .note (.called (println offset len)) fun _ =>
      onBytes s (.ofGuest offset len) Host.println := rfl
    have hpart : (print offset len).serve s = .note (.called (print offset len)) fun _ =>
      onBytes s (.ofGuest offset len) Host.print := rfl
    rcases s.memory_cases with hm | ⟨k, m, hm⟩
    · rw [onBytes_of_error hm] at hwhole hpart
      rw [serveOn_of_error hwhole, serveOn_of_error hpart, hu, hu]
      rfl
    · by_cases hw : (Window.ofGuest offset len).Fits m.size
      · rw [onBytes_of_fits hm hw] at hwhole hpart
        exact serveOn_of_bind hu hwhole hpart t
      · rw [onBytes_of_not_fits hm hw] at hwhole hpart
        rw [serveOn_of_error hwhole, serveOn_of_error hpart, hu, hu]
        rfl
  | int value => exact serveOn_of_bind hu rfl rfl t
  | real value => exact serveOn_of_bind hu rfl rfl t

theorem FillsField.serveOn_eq (h : FillsField whole part) (hu : c.Unlogged) (s : Store) (t : σ) :
    whole.serveOn s c t = part.serveOn s c t := by
  cases h with
  | int value width h =>
    rw [serveOn_of_onConsole (d := Host.printIntPad value width) rfl, printIntPad_eq h,
      serveOn_of_onConsole (d := Host.printInt value) rfl, hu, hu]
  | real value width h =>
    rw [serveOn_of_onConsole (d := Host.printRealPad value width) rfl, printRealPad_eq h,
      serveOn_of_onConsole (d := Host.printReal value) rfl, hu, hu]

end HostCall

namespace Bridge

open HostCall (EndsLine FillsField)

variable {b : Bridge} {c : Console HostError σ} {call whole part : HostCall} {w : Window} {k : Nat}
  {m : Memory}

/-- What a bridge answers when it has served a call. -/
def answer (b : Bridge) : HostCall.Served × σ → Except Failure Reply × Bridge × σ
  | (.ok (value, store), t) => (.ok (.result value), { b with store }, t)
  | (.error e, t) => (.error (.host e), b, t)

theorem stepOn_call (h : b.Registered) (call : HostCall) (c : Console HostError σ) (t : σ) :
    b.stepOn c (.call call.function.name call.args) t = b.answer (call.serveOn b.store c t) := by
  simp only [stepOn, act, Bridge.call, h.find?, HostCall.call_args, Dialogue.run_bind,
    HostCall.serveOn]
  cases (call.serve b.store).run c t with
  | mk served u =>
    cases served with
    | error e => rfl
    | ok served => cases served <;> rfl

/-- Where nothing is registered, every function is undefined. -/
theorem stepOn_call_of_empty (h : b.registry = .empty) (name : String) (args : List Word)
    (c : Console HostError σ) (t : σ) :
    b.stepOn c (.call name args) t = (.ok .undefined, b, t) := by
  simp [stepOn, act, Bridge.call, h, Registry.empty, Registry.find?]

theorem stepOn_of_endsLine (h : EndsLine whole part) (hu : c.Unlogged) (hb : b.Consistent) (t : σ) :
    b.stepOn c (.call whole.function.name whole.args) t =
      andThen (b.stepOn c (.call part.function.name part.args) t) fun s =>
        s.1.stepOn c (.call HostCall.ln.function.name HostCall.ln.args) s.2 := by
  rcases hb.registry with he | hr
  · rw [stepOn_call_of_empty he, stepOn_call_of_empty he]
    exact (stepOn_call_of_empty he _ _ c t).symm
  · rw [stepOn_call hr, stepOn_call hr, h.serveOn_eq hu]
    cases hpart : part.serveOn b.store c t with
    | mk served u =>
      cases served with
      | error e => rfl
      | ok result =>
        obtain ⟨value, store⟩ := result
        have hread : part.function ≠ .readln := by cases h <;> nofun
        obtain rfl : store = b.store := (HostCall.serves_of_serveOn hpart).eq_of_ne_readln hread
        exact (stepOn_call hr .ln c u).symm

theorem stepOn_of_fillsField (h : FillsField whole part) (hu : c.Unlogged) (hb : b.Consistent)
    (t : σ) :
    b.stepOn c (.call whole.function.name whole.args) t =
      b.stepOn c (.call part.function.name part.args) t := by
  rcases hb.registry with he | hr
  · rw [stepOn_call_of_empty he, stepOn_call_of_empty he]
  · rw [stepOn_call hr, stepOn_call hr, h.serveOn_eq hu]

theorem stepOn_of_unpublished (h : b.Registered) (hu : c.Unlogged) (hw : call.window? = some w)
    (hp : b.store.published = none) (t : σ) :
    b.stepOn c (.call call.function.name call.args) t =
      (.error (.host .memoryUnavailable), b, t) := by
  rw [stepOn_call h, HostCall.serveOn_of_error (HostCall.serve_of_unpublished hw hp), hu]
  rfl

theorem stepOn_of_not_fits (h : b.Registered) (hu : c.Unlogged) (hw : call.window? = some w)
    (hp : b.store.published = some k) (hm : b.store.memories[k]? = some m) (hfits : ¬ w.Fits m.size)
    (t : σ) :
    b.stepOn c (.call call.function.name call.args) t =
      (.error (.host (.outOfBounds w.offset w.len m.size)), b, t) := by
  have hm := Store.memory_of_published hp hm
  rw [stepOn_call h, HostCall.serveOn_of_not_fits hw hm hfits, hu]
  rfl

/-- On every console a call that ends a line makes the same console calls, with the same result and
the same state of the console after them, as the call that does not end the line and then, if that
succeeds, a newline. A call whose text fills its field does the same as the call without the field.
Both hold of the operations themselves and of the linked functions, on every bridge that is reached.
Without a memory, or where its window is not in the memory, a linked function fails before it asks
anything of the console. -/
theorem calls_compose (c : Console HostError σ) :
    (∀ {α : Type} (d : Dialogue α) (calls : List Console.Call) (s : σ), ∃ more,
      d.run c.keeping (calls, s) = ((d.run c s).1, calls ++ more, (d.run c s).2)) ∧
    (∀ (calls : List Console.Call) (s : σ) (bytes : List UInt8),
      (∀ whole part, EndsLine whole part →
        (whole.operation bytes).perform.run c.keeping (calls, s) =
          andThen ((part.operation bytes).perform.run c.keeping (calls, s))
            (Host.Operation.ln.perform.run c.keeping)) ∧
      ∀ whole part, FillsField whole part →
        (whole.operation bytes).perform.run c.keeping (calls, s) =
          (part.operation bytes).perform.run c.keeping (calls, s)) ∧
    (c.Unlogged → ∀ (start : σ) (actions : List Action) (b : Bridge) (s : σ),
      empty.afterOn c start actions = (b, s) → ∀ calls : List Console.Call,
        (∀ whole part, EndsLine whole part →
          b.stepOn c.keeping (.call whole.function.name whole.args) (calls, s) =
            andThen (b.stepOn c.keeping (.call part.function.name part.args) (calls, s)) fun t =>
              t.1.stepOn c.keeping (.call HostCall.ln.function.name HostCall.ln.args) t.2) ∧
        (∀ whole part, FillsField whole part →
          b.stepOn c.keeping (.call whole.function.name whole.args) (calls, s) =
            b.stepOn c.keeping (.call part.function.name part.args) (calls, s)) ∧
        (.register ∈ actions → ∀ (call : HostCall) (w : Window), call.window? = some w →
          (b.store.published = none →
            b.stepOn c.keeping (.call call.function.name call.args) (calls, s) =
              (.error (.host .memoryUnavailable), b, calls, s)) ∧
          ∀ k, b.store.published = some k → ∃ m, b.store.memories[k]? = some m ∧
            (¬ w.Fits m.size →
              b.stepOn c.keeping (.call call.function.name call.args) (calls, s) =
                (.error (.host (.outOfBounds w.offset w.len m.size)), b, calls, s)))) := by
  refine ⟨c.run_keeping, ?operations, ?linked⟩
  case operations =>
    intro calls s bytes
    refine ⟨?_, ?_⟩
    · intro whole part h
      rw [h.perform_eq, run_bind_eq]
    · intro whole part h
      rw [h.perform_eq]
  case linked =>
    intro hu start actions b s hb calls
    obtain ⟨hc, hr⟩ := afterOn_follows c consistent_empty start actions
    rw [hb] at hc hr
    refine ⟨fun whole part h => stepOn_of_endsLine h hu.keeping hc _,
      fun whole part h => stepOn_of_fillsField h hu.keeping hc _, ?_⟩
    intro hreg call w hw
    refine ⟨fun hp => stepOn_of_unpublished (hr (.inr hreg)) hu.keeping hw hp _, ?_⟩
    intro k hp
    obtain ⟨m, hm⟩ : ∃ m, b.store.memories[k]? = some m :=
      ⟨_, Array.getElem?_eq_getElem (hc.published k hp)⟩
    exact ⟨m, hm, fun hfits => stepOn_of_not_fits (hr (.inr hreg)) hu.keeping hw hp hm hfits _⟩

/-- The console fails at the newline. -/
theorem calls_compose_secondWrite :
    ∃ b r t, empty.afterOn Recorder.console (.start [] ⟨0, 2, "closed"⟩) [.register] = (b, r) ∧
      b.stepOn Recorder.console.keeping (.call "println_int" [7]) ([], r) =
        (.error (.host (.io "closed")), b, t) ∧
      t.1 = [.write "7", .write "\n"] := by
  obtain ⟨b, r, hb⟩ : ∃ b r,
      empty.afterOn Recorder.console (.start [] ⟨0, 2, "closed"⟩) [.register] = (b, r) :=
    ⟨_, _, rfl⟩
  obtain ⟨-, -, hlinked⟩ := calls_compose Recorder.console
  obtain ⟨hlines, -⟩ := hlinked (fun _ _ => rfl) _ _ b r hb []
  have hstep := hlines _ _ (.int 7)
  cases hb
  exact ⟨_, _, _, rfl, hstep, rfl⟩

end Bridge
end ConsoleHost
