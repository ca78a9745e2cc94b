import ConsoleHost.Proofs.Guest.Executions
import ConsoleHost.Proofs.Host.Refinement
import ConsoleHost.Proofs.Memory.Contents
import ConsoleHost.Proofs.Text.Encoding

/-! Storing: what a served call comes to. Of the memories it changes only the published one, and only
by storing a line there. Where its window is not in that memory it is refused, and by nothing
else. -/
namespace ConsoleHost

open Recorder

namespace HostCall

variable {σ : Type} {call : HostCall} {c : Console HostError σ} {s s' : Store} {t t' : σ}
  {value : Option Int32} {k : Nat} {m : Memory} {w : Window} {patches : List Patch} {r r' : Recorder}
  {offset len : Int32} {d : Dialogue Unit} {e : HostError}

/-! ### What a call comes to -/

/-- What serving a call comes to that only writes, and what it writes. -/
def writing (s : Store) (d : Dialogue Unit) (c : Console HostError σ) (t : σ) : Served × σ :=
  match d.run c t with
  | (.ok _, t) => (.ok (none, s), t)
  | (.error e, t) => (.error e, t)

theorem serveOn_of_error (hserve : call.serve s = .note (.called call) fun _ => .done (.error e))
    (c : Console HostError σ) (t : σ) :
    call.serveOn s c t = (.error e, c.note (.called call) t) := by
  simp only [serveOn, hserve, Dialogue.run]

theorem serveOn_of_onConsole (hserve : call.serve s = .note (.called call) fun _ => onConsole s d)
    (c : Console HostError σ) (t : σ) :
    call.serveOn s c t = writing s d c (c.note (.called call) t) := by
  simp only [serveOn, writing, hserve, onConsole, Dialogue.run, Dialogue.run_bind]
  cases d.run c (c.note (.called call) t) with
  | mk result u => cases result <;> rfl

theorem serveOn_of_not_fits (hc : call.window? = some w) (hm : s.memory = .ok (k, m))
    (hw : ¬ w.Fits m.size) (c : Console HostError σ) (t : σ) :
    call.serveOn s c t =
      (.error (.outOfBounds w.offset w.len m.size), c.note (.called call) t) := by
  refine serveOn_of_error ?_ c t
  rcases serve_of_window hc with ⟨f, hserve, -⟩ | ⟨hserve, -⟩
  · rw [hserve, onBytes_of_not_fits hm hw]
  · rw [hserve, readInto_of_not_fits hm hw]

/-- Where its window is in the memory, a line is read and stored there as far as it fits. -/
theorem serveOn_readln (hm : s.memory = .ok (k, m)) (hw : (Window.ofGuest offset len).Fits m.size)
    (c : Console HostError σ) (t : σ) :
    (readln offset len).serveOn s c t =
      match c.readLine (c.note (.called (readln offset len)) t) with
      | (.ok line, t) =>
        (.ok (some (lineLength (Text.encode (line.getD "")).length),
          s.modify k fun m => m.write (Window.ofGuest offset len).offset.toNat
            ((Text.encode (line.getD "")).take (Window.ofGuest offset len).len.toNat)), t)
      | (.error e, t) => (.error e, t) := by
  have hserve : (readln offset len).serve s = .note (.called (readln offset len)) fun _ =>
      readInto s (.ofGuest offset len) := rfl
  simp only [serveOn, hserve, readInto_of_fits hm hw, Dialogue.run, Dialogue.run_bind,
    Host.run_readln]
  cases c.readLine (c.note (.called (readln offset len)) t) with
  | mk result u => cases result <;> rfl

/-! ### What a call stores -/

/-- What a call stores if it is served: the first bytes of the line that it reads, as many as there
is room for. -/
def patch? (c : Console HostError σ) (call : HostCall) (t : σ) : Option Patch :=
  match call with
  | readln offset maxLen =>
    match (c.readLine (c.note (.called call) t)).1 with
    | .ok line =>
      let w := Window.ofGuest offset maxLen
      some ⟨w.offset.toNat, (Text.encode (line.getD "")).take w.len.toNat⟩
    | .error _ => none
  | _ => none

theorem patch?_of_ne_readln (h : call.function ≠ .readln) : call.patch? c t = none := by
  cases call with
  | readln => exact absurd rfl h
  | print | println | ln | printInt | printlnInt | printReal | printlnReal | printIntPad
  | printRealPad => rfl

/-- What a served call makes of the memories. -/
inductive Serves (c : Console HostError σ) (s : Store) (t : σ) : HostCall → Store → Prop where
  | unchanged {call : HostCall} (h : call.function ≠ .readln) : Serves c s t call s
  | line {offset maxLen : Int32} {k : Nat} {m : Memory} {p : Patch} (hm : s.memory = .ok (k, m))
      (hp : patch? c (readln offset maxLen) t = some p)
      (hfits : p.offset + p.bytes.length ≤ m.size) :
      Serves c s t (readln offset maxLen) (s.modify k fun m => m.write p.offset p.bytes)

/-- A call that does not read a line leaves the memories as they are. -/
theorem serve_yields_unchanged (h : call.function ≠ .readln) :
    (call.serve s).Yields fun served => ∀ value s', served = .ok (value, s') → s' = s := by
  have hsilent : ∀ value s', (.ok (none, s) : Served) = .ok (value, s') → s' = s := by
    rintro _ _ ⟨⟩
    rfl
  cases call with
  | readln => exact absurd rfl h
  | print | println => exact onBytes_yields (fun _ => nofun) (fun _ _ => nofun) hsilent
  | ln | printInt | printlnInt | printReal | printlnReal | printIntPad | printRealPad =>
    exact onConsole_yields hsilent _

theorem serves_readln (h : (readln offset len).serveOn s c t = (.ok (value, s'), t')) :
    Serves c s t (readln offset len) s' := by
  rcases s.memory_cases with hm | ⟨k, m, hm⟩
  · have hserve : (readln offset len).serve s = .note (.called (readln offset len)) fun _ =>
        readInto s (.ofGuest offset len) := rfl
    rw [readInto_of_error hm] at hserve
    rw [serveOn_of_error hserve] at h
    cases h
  · by_cases hw : (Window.ofGuest offset len).Fits m.size
    · rw [serveOn_readln hm hw] at h
      split at h
      · rename_i line u hread
        cases h
        have hp : patch? c (readln offset len) t =
            some ⟨(Window.ofGuest offset len).offset.toNat,
              (Text.encode (line.getD "")).take (Window.ofGuest offset len).len.toNat⟩ := by
          simp only [patch?, hread]
        exact .line hm hp (Nat.le_trans (Nat.add_le_add_left (List.length_take_le _ _) _) hw)
      · cases h
    · rw [serveOn_of_not_fits rfl hm hw] at h
      cases h

/-- A served call does one of the two. -/
theorem serves_of_serveOn (h : call.serveOn s c t = (.ok (value, s'), t')) :
    Serves c s t call s' := by
  by_cases hf : call.function = .readln
  · cases call with
    | readln => exact serves_readln h
    | print | println | ln | printInt | printlnInt | printReal | printlnReal | printIntPad
    | printRealPad => cases hf
  · unfold serveOn at h
    split at h
    · rename_i hrun
      cases h
      rw [(serve_yields_unchanged hf).of_run hrun _ _ rfl]
      exact .unchanged hf
    · cases h

theorem Serves.eq_of_ne_readln (h : Serves c s t call s') (hf : call.function ≠ .readln) :
    s' = s := by
  cases h with
  | unchanged => rfl
  | line => exact absurd rfl hf

theorem Serves.published_eq (h : Serves c s t call s') : s'.published = s.published := by
  cases h <;> rfl

theorem published_of_memory (h : s.memory = .ok (k, m)) :
    s.published = some k ∧ s.memories[k]? = some m := by
  unfold Store.memory at h
  split at h
  · cases h
  · split at h <;> cases h
    exact ⟨‹_›, ‹_›⟩

/-- Memories that are not published stay as they are. -/
theorem Serves.unpublished_eq (h : Serves c s t call s') (hk : s.published ≠ some k) :
    s'.memories[k]? = s.memories[k]? := by
  cases h with
  | unchanged => rfl
  | line hm =>
    rw [Store.getElem?_modify, if_neg]
    rintro rfl
    exact hk (published_of_memory hm).1

/-- A memory keeps its size, and the published one holds the line that is stored. -/
theorem Serves.holds (h : Serves c s t call s') (hk : ∀ j, s.published = some j → j = k)
    (hm : s.memories[k]? = some m) (hh : m.Holds patches) :
    ∃ m', s'.memories[k]? = some m' ∧ m'.size = m.size ∧
      m'.Holds (patches ++ (call.patch? c t).toList) := by
  cases h with
  | unchanged hf =>
    rw [patch?_of_ne_readln hf]
    exact ⟨m, hm, rfl, by simpa using hh⟩
  | line hmem hp hfits =>
    obtain ⟨hk', hm'⟩ := published_of_memory hmem
    obtain rfl := hk _ hk'
    cases hm.symm.trans hm'
    rw [hp]
    exact ⟨_, by rw [Store.getElem?_modify, if_pos rfl, hm]; rfl, Memory.size_write, hh.write hfits⟩

/-! ### Windows -/

theorem serve_ne_outOfBounds (hc : call.window? = some w) (hm : s.memory = .ok (k, m))
    (hw : w.Fits m.size) :
    (call.serve s).Yields fun served =>
      ∀ offset len size, served ≠ .error (.outOfBounds offset len size) := by
  rcases serve_of_window hc with ⟨f, hserve, -⟩ | ⟨hserve, -⟩
  · rw [hserve, onBytes_of_fits hm hw]
    exact onConsole_yields (fun _ _ _ => nofun) _
  · rw [hserve, readInto_of_fits hm hw]
    exact (Host.readln_yields _).bind fun _ _ _ _ _ => nofun

/-- The call is refused for its window. -/
def Refused (call : HostCall) (s : Store) (c : Console HostError σ) (t : σ) : Prop :=
  ∃ offset len size, (call.serveOn s c t).1 = .error (.outOfBounds offset len size)

/-- That happens where the window is not in the published memory, and nowhere else. -/
theorem refused_iff (hc : call.window? = some w) (hm : s.memory = .ok (k, m)) (r : Recorder) :
    call.Refused s console r ↔ ¬ w.Fits m.size := by
  constructor
  · rintro ⟨offset, len, size, h⟩ hw
    unfold serveOn at h
    split at h
    · rename_i hrun
      exact (serve_ne_outOfBounds hc hm hw).of_run hrun offset len size h
    · rename_i hrun
      rw [error_of_run hrun] at h
      cases h
  · intro hw
    exact ⟨_, _, _, congrArg Prod.fst (serveOn_of_not_fits hc hm hw console r)⟩

/-- Bytes of memory are written as the operation writes them. -/
theorem serveOn_of_onBytes {f : List UInt8 → Dialogue Unit}
    (hserve : call.serve s = .note (.called call) fun _ => onBytes s w f)
    (hm : s.memory = .ok (k, m)) (hw : w.Fits m.size) (c : Console HostError σ) (t : σ) :
    call.serveOn s c t =
      writing s (f (m.read w.offset.toNat w.len.toNat)) c (c.note (.called call) t) := by
  rw [onBytes_of_fits hm hw] at hserve
  exact serveOn_of_onConsole hserve c t

end HostCall
end ConsoleHost
