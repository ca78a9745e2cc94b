import ConsoleHost.Proofs.Console.Faults
import ConsoleHost.Proofs.Host.Reachable
import ConsoleHost.Proofs.Memory.Overwrite
import Mathlib.Algebra.Group.Nat.Defs

/-! Linked calls: each is its operation on the window of the published memory, and nothing else. -/
namespace ConsoleHost

variable {b : Bridge} {r : Recorder} {c : HostCall} {w : Window} {k : Nat} {m : Memory}
  {e : HostError} {d : Dialogue Unit}

theorem Word.toInt32_ofInt32 (n : Int32) : (ofInt32 n).toInt32 = n := by
  simp [ofInt32, toInt32]

namespace HostCall

/-- The arguments of a call, each in a word. -/
def args : HostCall → List Word
  | readln a b | print a b | println a b | printIntPad a b => [.ofInt32 a, .ofInt32 b]
  | ln => []
  | printInt a | printlnInt a => [.ofInt32 a]
  | printReal x | printlnReal x => [x.bits]
  | printRealPad x a => [x.bits, .ofInt32 a]

/-- The range of memory that a call names. -/
def window? : HostCall → Option Window
  | readln offset len | print offset len | println offset len => some (.ofGuest offset len)
  | _ => none

/-- The operation of a call, with the bytes that its range of memory holds. -/
def operation (bytes : List UInt8) : HostCall → Host.Operation
  | readln .. => .readln bytes
  | print .. => .print bytes
  | println .. => .println bytes
  | ln => .ln
  | printInt a => .printInt a
  | printlnInt a => .printlnInt a
  | printReal x => .printReal x
  | printlnReal x => .printlnReal x
  | printIntPad a width => .printIntPad a width
  | printRealPad x width => .printRealPad x width

theorem call_args (c : HostCall) : c.function.call c.args = c := by
  cases c <;>
    dsimp only [function, args, HostFunction.call, HostFunction.closure, Takes.apply,
      HostType.ofWord, List.headD_cons, List.tail_cons] <;>
    simp only [Word.toInt32_ofInt32]

/-- A call that names no range of memory only writes. -/
theorem serve_of_no_window (h : c.window? = none) : ∃ d : Dialogue Unit,
    (∀ s, c.serve s = .note (.called c) fun _ => onConsole s d) ∧
      ∀ bytes, (c.operation bytes).perform = d.bind fun _ => .done .none := by
  cases c with
  | readln | print | println => cases h
  | ln | printInt | printlnInt | printReal | printlnReal | printIntPad | printRealPad =>
    exact ⟨_, fun _ => rfl, fun _ => rfl⟩

/-- A call that names one writes the bytes there or reads a line into them. -/
theorem serve_of_window (h : c.window? = some w) :
    (∃ f : List UInt8 → Dialogue Unit,
      (∀ s, c.serve s = .note (.called c) fun _ => onBytes s w f) ∧
        ∀ bytes, (c.operation bytes).perform = (f bytes).bind fun _ => .done .none) ∨
    ((∀ s, c.serve s = .note (.called c) fun _ => readInto s w) ∧
      ∀ bytes, c.operation bytes = .readln bytes) := by
  cases c with
  | readln =>
    cases h
    exact .inr ⟨fun _ => rfl, fun _ => rfl⟩
  | print | println =>
    cases h
    exact .inl ⟨_, fun _ => rfl, fun _ => rfl⟩
  | ln | printInt | printlnInt | printReal | printlnReal | printIntPad | printRealPad => cases h

theorem serve_of_unpublished {s : Store} (h : c.window? = some w) (hp : s.published = none) :
    c.serve s = .note (.called c) fun _ => .done (.error .memoryUnavailable) := by
  have hm := Store.memory_of_unpublished hp
  rcases serve_of_window h with ⟨f, hserve, -⟩ | ⟨hserve, -⟩
  · rw [hserve, onBytes_of_error hm]
  · rw [hserve, readInto_of_error hm]

theorem toInt_lineLength (n : Nat) : (lineLength n).toInt = min n (2 ^ 31 - 1) := by
  have hmax : min n maxLength < 2 ^ 31 := by
    unfold maxLength
    omega
  rw [lineLength, Int32.toInt_ofNat_of_lt hmax]
  unfold maxLength
  omega

end HostCall

namespace Bridge

/-- The second bridge is the first but for one of its memories. -/
structure DiffersAt (b b' : Bridge) (k : Nat) (m' : Memory) : Prop where
  registry : b'.registry = b.registry
  published : b'.store.published = b.store.published
  count : b'.store.memories.size = b.store.memories.size
  memory : b'.store.memories[k]? = some m'
  others : ∀ j, j ≠ k → b'.store.memories[j]? = b.store.memories[j]?

theorem differsAt_modify (hm : b.store.memories[k]? = some m) (g : Memory → Memory) :
    b.DiffersAt { b with store := b.store.modify k g } k (g m) := by
  refine ⟨rfl, rfl, Store.size_modify, ?_, ?_⟩
  · rw [Store.getElem?_modify, if_pos rfl, hm]
    rfl
  · intro j hj
    rw [Store.getElem?_modify, if_neg hj.symm]

/-- The answer of a linked call follows from that of its operation on the window `w` of memory `k`.
A line goes to the start of the window, and its length is the result. -/
def Answers (b : Bridge) (r : Recorder) (k : Nat) (m : Memory) (w : Window) :
    Except HostError Host.Reply × Recorder → Except Failure Reply × Bridge × Recorder → Prop
  | (.error e, r'), answer => answer = (.error (.host e), b, r')
  | (.ok .none, r'), answer => answer = (.ok (.result none), b, r')
  | (.ok (.line length buffer), r'), answer =>
    ∃ line value b' m', r'.events = r.events.push (.read line) ∧
      length = (Text.encode (line.getD "")).length ∧
      answer = (.ok (.result (some value)), b', r') ∧ value.toInt = min length (2 ^ 31 - 1) ∧
      b.DiffersAt b' k m' ∧
      m.Overwritten m' w.offset.toNat ((Text.encode (line.getD "")).take w.len.toNat) ∧
      m'.read w.offset.toNat w.len.toNat = buffer

/-- A call by name is the served call, whose store the bridge takes over. -/
theorem step_call_of_find {name : String} {f : HostFunction} (h : b.registry.find? name = some f)
    (args : List Word) (r : Recorder) :
    b.step (.call name args) r =
      match ((f.call args).serve b.store).run Recorder.console r with
      | (.ok (.ok (value, store)), r') => (.ok (.result value), { b with store }, r')
      | (.ok (.error e), r') => (.error (.host e), b, r')
      | (.error e, r') => (.error (.host e), b, r') := by
  simp only [step, act, call, h, Dialogue.run_bind]
  cases ((f.call args).serve b.store).run Recorder.console r with
  | mk served r' =>
    cases served with
    | error e => rfl
    | ok served =>
      cases served with
      | error e => rfl
      | ok result => rfl

theorem Registered.find? (h : b.Registered) (c : HostCall) :
    b.registry.find? c.function.name = some c.function := by
  rw [show b.registry = ⟨HostFunction.all⟩ from h]
  exact HostFunction.find?_name _

theorem step_call (h : b.Registered) (c : HostCall) (r : Recorder) :
    b.step (.call c.function.name c.args) r =
      match (c.serve b.store).run Recorder.console r with
      | (.ok (.ok (value, store)), r') => (.ok (.result value), { b with store }, r')
      | (.ok (.error e), r') => (.error (.host e), b, r')
      | (.error e, r') => (.error (.host e), b, r') := by
  rw [step_call_of_find (h.find? c), HostCall.call_args]

/-- Calls that fail before they reach the console do nothing else. -/
theorem step_of_error (h : b.Registered)
    (hc : c.serve b.store = .note (.called c) fun _ => .done (.error e)) :
    b.step (.call c.function.name c.args) r = (.error (.host e), b, r) := by
  rw [step_call h, hc]
  rfl

/-- Calls that only write answer as the dialogue does that they are. -/
theorem step_of_onConsole (h : b.Registered)
    (hc : c.serve b.store = .note (.called c) fun _ => HostCall.onConsole b.store d) :
    b.step (.call c.function.name c.args) r =
      match (d.bind fun _ => .done Host.Reply.none).run Recorder.console r with
      | (.ok _, r') => (.ok (.result none), b, r')
      | (.error e, r') => (.error (.host e), b, r') := by
  have hrun : (c.serve b.store).run Recorder.console r =
      (d.bind fun _ => .done (.ok (none, b.store))).run Recorder.console r := by
    rw [hc]
    rfl
  rw [step_call h, hrun, Dialogue.run_bind, Dialogue.run_bind]
  cases d.run Recorder.console r with
  | mk result r' => cases result <;> rfl

/-- Calls that write bytes of memory answer as the operation on the bytes of their window. -/
theorem answers_of_onBytes {f : List UInt8 → Dialogue Unit} (h : b.Registered)
    (hc : c.serve b.store = .note (.called c) fun _ => HostCall.onBytes b.store w f)
    (hm : b.store.memory = .ok (k, m)) (hw : w.Fits m.size) (r : Recorder) :
    b.Answers r k m w
      (((f (m.read w.offset.toNat w.len.toNat)).bind fun _ => .done .none).run Recorder.console r)
      (b.step (.call c.function.name c.args) r) := by
  rw [HostCall.onBytes_of_fits hm hw] at hc
  rw [step_of_onConsole h hc, Dialogue.run_bind]
  cases (f (m.read w.offset.toNat w.len.toNat)).run Recorder.console r with
  | mk result r' => cases result <;> rfl

/-- A call that reads a line answers as the operation on the bytes of its window. -/
theorem answers_of_readInto (h : b.Registered)
    (hc : c.serve b.store = .note (.called c) fun _ => HostCall.readInto b.store w)
    (hp : b.store.published = some k) (hm : b.store.memories[k]? = some m) (hw : w.Fits m.size)
    (r : Recorder) :
    b.Answers r k m w
      ((Host.Operation.readln (m.read w.offset.toNat w.len.toNat)).perform.run Recorder.console r)
      (b.step (.call c.function.name c.args) r) := by
  have hserve : (c.serve b.store).run Recorder.console r =
      ((Host.readln w.len.toNat).bind fun read =>
        .done (.ok (some (HostCall.lineLength read.1),
          b.store.modify k fun m => m.write w.offset.toNat read.2))).run Recorder.console r := by
    rw [hc, HostCall.readInto_of_fits (Store.memory_of_published hp hm) hw]
    rfl
  rw [step_call h, hserve, Host.Operation.perform, Dialogue.run_bind, Dialogue.run_bind,
    Memory.length_read, Host.run_readln]
  cases hread : Recorder.console.readLine r with
  | mk result r' =>
    cases result with
    | error e => rfl
    | ok line =>
      have hcopied : ((Text.encode (line.getD "")).take w.len.toNat).length ≤ w.len.toNat :=
        List.length_take_le _ _
      have hfits :
          w.offset.toNat + ((Text.encode (line.getD "")).take w.len.toNat).length ≤ m.size :=
        Nat.le_trans (Nat.add_le_add_left hcopied _) hw
      exact ⟨line, _, _, _, (Recorder.readLine_ok hread).2.2, rfl, rfl, HostCall.toInt_lineLength _,
        differsAt_modify hm _, Memory.overwritten_write hfits, Memory.read_write_prefix hcopied hw⟩

theorem step_of_no_window (h : b.Registered) (hc : c.window? = none) :
    b.step (.call c.function.name c.args) r =
      match (c.operation []).perform.run Recorder.console r with
      | (.ok _, r') => (.ok (.result none), b, r')
      | (.error e, r') => (.error (.host e), b, r') := by
  obtain ⟨d, hserve, hop⟩ := HostCall.serve_of_no_window hc
  rw [hop, step_of_onConsole h (hserve _)]

theorem step_of_unpublished (h : b.Registered) (hc : c.window? = some w)
    (hp : b.store.published = none) :
    b.step (.call c.function.name c.args) r = (.error (.host .memoryUnavailable), b, r) :=
  step_of_error h (HostCall.serve_of_unpublished hc hp)

theorem step_of_not_fits (h : b.Registered) (hc : c.window? = some w)
    (hp : b.store.published = some k) (hm : b.store.memories[k]? = some m) (hw : ¬ w.Fits m.size) :
    b.step (.call c.function.name c.args) r =
      (.error (.host (.outOfBounds w.offset w.len m.size)), b, r) := by
  have hm := Store.memory_of_published hp hm
  refine step_of_error h ?_
  rcases HostCall.serve_of_window hc with ⟨f, hserve, -⟩ | ⟨hserve, -⟩
  · rw [hserve, HostCall.onBytes_of_not_fits hm hw]
  · rw [hserve, HostCall.readInto_of_not_fits hm hw]

theorem answers_of_fits (h : b.Registered) (hc : c.window? = some w)
    (hp : b.store.published = some k) (hm : b.store.memories[k]? = some m) (hw : w.Fits m.size)
    (r : Recorder) :
    b.Answers r k m w
      ((c.operation (m.read w.offset.toNat w.len.toNat)).perform.run Recorder.console r)
      (b.step (.call c.function.name c.args) r) := by
  rcases HostCall.serve_of_window hc with ⟨f, hserve, hop⟩ | ⟨hserve, hop⟩
  · rw [hop]
    exact answers_of_onBytes h (hserve _) (Store.memory_of_published hp hm) hw r
  · rw [hop]
    exact answers_of_readInto h (hserve _) hp hm hw r

/-- A linked call is its operation on the published memory, and nothing else. A call that names no
range of memory answers as its operation does, with or without a memory. One that names a range
answers as its operation does on the bytes there; with no memory, or a range that is not in it, it
fails before it reads or writes anything. -/
theorem call_refines {lines : List String} {faults : Faults} {actions : List Action}
    (hreg : .register ∈ actions) (hb : empty.after (.start lines faults) actions = (b, r))
    (c : HostCall) :
    (c.window? = none →
      b.step (.call c.function.name c.args) r =
        match (c.operation []).perform.run Recorder.console r with
        | (.ok _, r') => (.ok (.result none), b, r')
        | (.error e, r') => (.error (.host e), b, r')) ∧
    ∀ w, c.window? = some w →
      (b.store.published = none →
        b.step (.call c.function.name c.args) r = (.error (.host .memoryUnavailable), b, r)) ∧
      ∀ k, b.store.published = some k → ∃ m, b.store.memories[k]? = some m ∧
        (¬ w.Fits m.size →
          b.step (.call c.function.name c.args) r =
            (.error (.host (.outOfBounds w.offset w.len m.size)), b, r)) ∧
        (w.Fits m.size →
          b.Answers r k m w
            ((c.operation (m.read w.offset.toNat w.len.toNat)).perform.run Recorder.console r)
            (b.step (.call c.function.name c.args) r)) := by
  obtain ⟨hc, hr⟩ := after_follows consistent_empty (.start lines faults) actions
  rw [hb] at hc hr
  have hr := hr (.inr hreg)
  refine ⟨step_of_no_window hr, ?_⟩
  intro w hw
  refine ⟨step_of_unpublished hr hw, ?_⟩
  intro k hp
  obtain ⟨m, hm⟩ : ∃ m, b.store.memories[k]? = some m :=
    ⟨_, Array.getElem?_eq_getElem (hc.published k hp)⟩
  exact ⟨m, hm, step_of_not_fits hr hw hp hm, fun hfits => answers_of_fits hr hw hp hm hfits r⟩

/-- A line of five bytes read into a window of three. -/
theorem call_refines_readln :
    ∃ b r b' r' value m,
      empty.after (.start ["hello"] ⟨0, 0, ""⟩) [.register, .newMemory 1 none, .publish 0] =
          (b, r) ∧
        b.step (.call "readln" (HostCall.readln 2 3).args) r =
          (.ok (.result (some value)), b', r') ∧
        value.toInt = 5 ∧ b.DiffersAt b' 0 m ∧ m.read 2 3 = [0x68, 0x65, 0x6C] := by
  obtain ⟨b, r, hb⟩ : ∃ b r,
      empty.after (.start ["hello"] ⟨0, 0, ""⟩) [.register, .newMemory 1 none, .publish 0] =
        (b, r) :=
    ⟨_, _, rfl⟩
  obtain ⟨-, hpublished⟩ := (call_refines (by simp) hb (.readln 2 3)).2 _ rfl
  cases hb
  obtain ⟨m, hm, -, hfits⟩ := hpublished 0 rfl
  cases hm
  obtain ⟨line, value, b', m', -, -, hstep, hvalue, hdiffers, -, hread⟩ := hfits (by decide)
  refine ⟨_, _, b', _, value, m', rfl, hstep, ?_, hdiffers, ?_⟩
  · rw [hvalue]
    decide
  · refine hread.trans ?_
    decide

end Bridge
end ConsoleHost
