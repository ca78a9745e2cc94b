import ConsoleHost.Host.Call
import ConsoleHost.Proofs.Console.Dialogues

/-! Served calls: what they come to with and without a published memory, in and out of bounds. -/
namespace ConsoleHost

variable {s : Store} {k : Nat} {m : Memory} {e : HostError} {w : Window}
  {f : List UInt8 → Dialogue Unit}

namespace Store

theorem memory_of_unpublished (h : s.published = none) : s.memory = .error .memoryUnavailable := by
  simp only [memory, h]

theorem memory_of_published (h : s.published = some k) (hm : s.memories[k]? = some m) :
    s.memory = .ok (k, m) := by
  simp only [memory, h, hm]

theorem memory_cases (s : Store) :
    s.memory = .error .memoryUnavailable ∨ ∃ k m, s.memory = .ok (k, m) := by
  unfold memory
  split
  · exact .inl rfl
  · split
    · exact .inl rfl
    · exact .inr ⟨_, _, rfl⟩

end Store

/-- A line is read before anything is known of it, and nothing else is asked of the console. -/
theorem Host.run_readln {σ : Type} (c : Console HostError σ) (room : Nat) (t : σ) :
    (Host.readln room).run c t =
      match c.readLine t with
      | (.ok line, t) =>
        (.ok ((Text.encode (line.getD "")).length, (Text.encode (line.getD "")).take room), t)
      | (.error e, t) => (.error e, t) := by
  simp only [Host.readln, Dialogue.ask, Dialogue.run_bind, Dialogue.run]
  cases c.readLine t with
  | mk result t => cases result <;> rfl

/-- Of a line no more is copied than there is room for. -/
theorem Host.readln_yields (room : Nat) :
    (Host.readln room).Yields fun line => line.2.length ≤ room := by
  intro line
  exact List.length_take_le _ _

namespace HostCall

theorem onBytes_of_error (h : s.memory = .error e) : onBytes s w f = .done (.error e) := by
  simp only [onBytes, h]

theorem onBytes_of_fits (h : s.memory = .ok (k, m)) (hw : w.Fits m.size) :
    onBytes s w f = onConsole s (f (m.read w.offset.toNat w.len.toNat)) := by
  simp only [onBytes, h, Memory.slice_of_fits hw]

theorem onBytes_of_not_fits (h : s.memory = .ok (k, m)) (hw : ¬ w.Fits m.size) :
    onBytes s w f = .done (.error (.outOfBounds w.offset w.len m.size)) := by
  simp only [onBytes, h, Memory.slice_of_not_fits hw]

theorem readInto_of_error (h : s.memory = .error e) : readInto s w = .done (.error e) := by
  simp only [readInto, h]

theorem readInto_of_fits (h : s.memory = .ok (k, m)) (hw : w.Fits m.size) :
    readInto s w = (Host.readln w.len.toNat).bind fun (length, copied) =>
      .done (.ok (some (lineLength length),
        s.modify k fun m => m.write w.offset.toNat copied)) := by
  simp only [readInto, h, Window.check, if_pos hw]

theorem readInto_of_not_fits (h : s.memory = .ok (k, m)) (hw : ¬ w.Fits m.size) :
    readInto s w = .done (.error (.outOfBounds w.offset w.len m.size)) := by
  simp only [readInto, h, Window.check, if_neg hw]

section Yields

variable {P : Served → Prop}

theorem onConsole_yields (hsilent : P (.ok (none, s))) (d : Dialogue Unit) :
    (onConsole s d).Yields P :=
  d.yields_trivial.bind fun _ _ => hsilent

theorem onBytes_yields
    (hmemory : s.memory = .error .memoryUnavailable → P (.error .memoryUnavailable))
    (hbounds : ∀ w : Window, ∀ size, P (.error (.outOfBounds w.offset w.len size)))
    (hsilent : P (.ok (none, s))) : (onBytes s w f).Yields P := by
  rcases s.memory_cases with h | ⟨k, m, h⟩
  · rw [onBytes_of_error h]
    exact hmemory h
  · by_cases hw : w.Fits m.size
    · rw [onBytes_of_fits h hw]
      exact onConsole_yields hsilent _
    · rw [onBytes_of_not_fits h hw]
      exact hbounds w m.size

theorem readInto_yields
    (hmemory : s.memory = .error .memoryUnavailable → P (.error .memoryUnavailable))
    (hbounds : ∀ w : Window, ∀ size, P (.error (.outOfBounds w.offset w.len size)))
    (hline : ∀ value k m offset bytes, s.memory = .ok (k, m) → offset + bytes.length ≤ m.size →
      P (.ok (some value, s.modify k fun m => m.write offset bytes))) :
    (readInto s w).Yields P := by
  rcases s.memory_cases with h | ⟨k, m, h⟩
  · rw [readInto_of_error h]
    exact hmemory h
  · by_cases hw : w.Fits m.size
    · rw [readInto_of_fits h hw]
      refine (Host.readln_yields _).bind ?_
      intro line hroom
      exact hline _ k m _ _ h (Nat.le_trans (Nat.add_le_add_left hroom _) hw)
    · rw [readInto_of_not_fits h hw]
      exact hbounds w m.size

/-- All that a served call can come to: one of two failures, nothing, or a line in the published
memory. -/
theorem serve_yields (call : HostCall)
    (hmemory : s.memory = .error .memoryUnavailable → P (.error .memoryUnavailable))
    (hbounds : ∀ w : Window, ∀ size, P (.error (.outOfBounds w.offset w.len size)))
    (hsilent : P (.ok (none, s)))
    (hline : ∀ value k m offset bytes, s.memory = .ok (k, m) → offset + bytes.length ≤ m.size →
      P (.ok (some value, s.modify k fun m => m.write offset bytes))) :
    (call.serve s).Yields P := by
  cases call with
  | readln => exact readInto_yields hmemory hbounds hline
  | print | println => exact onBytes_yields hmemory hbounds hsilent
  | ln | printInt | printlnInt | printReal | printlnReal | printIntPad | printRealPad =>
    exact onConsole_yields hsilent _

end Yields

/-- A served call does not say that the console has failed; only the console does. -/
theorem serve_ne_io (s : Store) (call : HostCall) :
    (call.serve s).Yields fun served => ∀ reason, served ≠ .error (.io reason) := by
  refine call.serve_yields ?_ ?_ ?_ ?_ <;> simp

/-- With a published memory, no call lacks one. -/
theorem serve_ne_memoryUnavailable (h : s.memory = .ok (k, m)) (call : HostCall) :
    (call.serve s).Yields fun served => served ≠ .error .memoryUnavailable := by
  refine call.serve_yields ?_ ?_ ?_ ?_ <;> simp [h]

/-- A served call leaves every memory in its place, and the published one published. -/
theorem serve_keeps (s : Store) (call : HostCall) :
    (call.serve s).Yields fun served => ∀ value t, served = .ok (value, t) →
      t.published = s.published ∧ t.memories.size = s.memories.size := by
  refine call.serve_yields ?_ ?_ ?_ ?_
  · intro _ value t h
    cases h
  · intro w size value t h
    cases h
  · intro value t h
    cases h
    exact ⟨rfl, rfl⟩
  · intro _ k m offset bytes _ _ value t h
    cases h
    exact ⟨Store.published_modify, Store.size_modify⟩

end HostCall
end ConsoleHost
