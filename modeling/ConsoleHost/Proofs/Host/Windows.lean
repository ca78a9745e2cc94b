import Mathlib
import ConsoleHost.Proofs.Host.Echo
import ConsoleHost.Proofs.Host.Publishing
import ConsoleHost.Proofs.Host.Storing

/-! Windows of the published memory over time: they are those of its size at each moment, and they
hold what was stored there last. -/
namespace ConsoleHost

open Recorder

theorem Store.getElem?_grow (s : Store) (j delta k : Nat) :
    (s.grow j delta).2.memories[k]? =
      (s.memories[k]?).map fun m => if j = k then (m.grow? delta).getD m else m := by
  have hsame : s.memories[k]? = (s.memories[k]?).map id := by simp
  unfold grow
  split
  · rename_i hnone
    by_cases hk : j = k
    · subst hk
      simp [hnone]
    · simp [hk]
  · rename_i m hm
    split
    · rename_i hg
      by_cases hk : j = k
      · subst hk
        simp [hm, hg]
      · simp [hk]
    · rw [getElem?_modify]
      split <;> simp

namespace Bridge

variable {b b' b'' : Bridge} {r r' r'' : Recorder} {a : Action} {k : Nat} {m : Memory}
  {actions : List Action} {patches : List Patch} {c : HostCall} {w : Window} {offset len : Int32}

/-- What an action stores in a memory: what is poked there, or the line that a call reads. -/
def stores? (b : Bridge) (r : Recorder) (k : Nat) : Action → Option Patch
  | .poke mem offset bytes =>
    if mem = k then
      (b.store.memories[k]?).map fun m => ⟨offset, bytes.take (m.size - offset)⟩
    else none
  | .call name args =>
    match b.registry.find? name with
    | none => none
    | some f =>
      if b.store.published = some k ∧ ((f.call args).serveOn b.store console r).1.isOk then
        (f.call args).patch? console r
      else none
  | _ => none

/-- What actions store in a memory, one after the other. -/
def stored (k : Nat) (b : Bridge) (r : Recorder) : List Action → List Patch
  | [] => []
  | a :: rest => (b.stores? r k a).toList ++ stored k (b.step a r).2.1 (b.step a r).2.2 rest

/-- The memory holds what was stored in it. As long as it is not made, that is nothing. -/
structure Holding (b : Bridge) (k : Nat) (patches : List Patch) : Prop where
  memory : ∀ m, b.store.memories[k]? = some m → m.Holds patches
  unmade : b.store.memories[k]? = none → patches = []

theorem Holding.congr (h : b.Holding k patches)
    (hm : b'.store.memories[k]? = b.store.memories[k]?) : b'.Holding k (patches ++ []) := by
  rw [List.append_nil]
  exact ⟨fun m => hm ▸ h.memory m, fun hn => h.unmade (hm ▸ hn)⟩

theorem step_call_by_name (b : Bridge) (name : String) (args : List Word) (r : Recorder) :
    b.step (.call name args) r =
      match b.registry.find? name with
      | none => (.ok .undefined, b, r)
      | some f =>
        match (f.call args).serveOn b.store console r with
        | (.ok (value, store), r') => (.ok (.result value), { b with store }, r')
        | (.error e, r') => (.error (.host e), b, r') := by
  cases h : b.registry.find? name with
  | none => simp only [step, act, call, h, Dialogue.run]
  | some f =>
    simp only [step_call_of_find h, HostCall.serveOn]
    cases ((f.call args).serve b.store).run console r with
    | mk served r' =>
      cases served with
      | error e => rfl
      | ok served => cases served <;> rfl

/-- A served call stores its line in the published memory. -/
theorem Holding.serves {call : HostCall} {store : Store} (h : b.Holding k patches)
    (hserves : HostCall.Serves console b.store r call store) :
    Holding { b with store } k
      (patches ++ (if b.store.published = some k then call.patch? console r else none).toList) := by
  by_cases hp : b.store.published = some k
  · rw [if_pos hp]
    cases hm : b.store.memories[k]? with
    | none =>
      -- Without the memory no line is read.
      cases hserves with
      | unchanged hf =>
        rw [HostCall.patch?_of_ne_readln hf]
        exact h.congr rfl
      | line hmem =>
        obtain ⟨hj, hsome⟩ := HostCall.published_of_memory hmem
        cases hp.symm.trans hj
        cases hm.symm.trans hsome
    | some m =>
      obtain ⟨m', hm', -, hholds⟩ := hserves.holds (by simp [hp]) hm (h.memory m hm)
      refine ⟨?_, ?_⟩
      · intro n hn
        cases hm'.symm.trans hn
        exact hholds
      · intro hn
        cases hm'.symm.trans hn
  · rw [if_neg hp]
    exact h.congr (hserves.unpublished_eq hp)

theorem Holding.call (h : b.Holding k patches) (name : String) (args : List Word) (r : Recorder) :
    (b.step (.call name args) r).2.1.Holding k
      (patches ++ (b.stores? r k (.call name args)).toList) := by
  have hsame : b.Holding k (patches ++ []) := h.congr rfl
  rw [step_call_by_name, stores?]
  cases b.registry.find? name with
  | none => exact hsame
  | some f =>
    cases hserve : (f.call args).serveOn b.store console r with
    | mk served r' =>
      cases served with
      | error e => simpa [hserve, Except.isOk, Except.toBool] using hsame
      | ok result =>
        have hholding := h.serves (HostCall.serves_of_serveOn hserve)
        simpa [hserve, Except.isOk, Except.toBool] using hholding

/-- A new memory holds nothing. -/
theorem Holding.newMemory (h : b.Holding k patches) (pages : Nat) (max : Option Nat) :
    Holding { b with store := (b.store.add (.ofPages pages max)).2 } k patches := by
  by_cases hk : k = b.store.memories.size
  · have hpatches := h.unmade (by simp [hk])
    subst hpatches
    refine ⟨?_, fun _ => rfl⟩
    intro m hm
    simp only [Store.add, hk, Array.getElem?_push_size] at hm
    cases hm
    exact Memory.holds_ofPages pages max
  · have hsame : (b.store.add (.ofPages pages max)).2.memories[k]? = b.store.memories[k]? := by
      simp [Store.add, Array.getElem?_push, hk]
    exact ⟨fun m hm => h.memory m (hsame ▸ hm), fun hn => h.unmade (hsame ▸ hn)⟩

theorem Holding.grow (h : b.Holding k patches) (mem pages : Nat) :
    Holding { b with store := (b.store.grow mem pages).2 } k patches := by
  refine ⟨?_, ?_⟩
  · intro n hn
    rw [Store.getElem?_grow, Option.map_eq_some_iff] at hn
    obtain ⟨m, hm, rfl⟩ := hn
    have hholds := h.memory m hm
    split
    · cases hg : m.grow? pages with
      | none => exact hholds
      | some g => exact hholds.grow hg
    · exact hholds
  · intro hn
    rw [Store.getElem?_grow, Option.map_eq_none_iff] at hn
    exact h.unmade hn

theorem Holding.poke (h : b.Holding k patches) (mem offset : Nat) (bytes : List UInt8)
    (r : Recorder) :
    Holding { b with store := b.store.modify mem fun m => m.write offset bytes } k
      (patches ++ (b.stores? r k (.poke mem offset bytes)).toList) := by
  rw [stores?]
  by_cases hk : mem = k
  · subst hk
    rw [if_pos rfl]
    cases hm : b.store.memories[mem]? with
    | none =>
      refine h.congr ?_
      simp only [Store.getElem?_modify, hm]
      rfl
    | some m =>
      refine ⟨?_, ?_⟩
      · intro n hn
        rw [Store.getElem?_modify, if_pos rfl, hm] at hn
        cases hn
        exact (h.memory m hm).poke offset bytes
      · intro hn
        rw [Store.getElem?_modify, if_pos rfl, hm] at hn
        cases hn
  · rw [if_neg hk]
    exact h.congr (by rw [Store.getElem?_modify, if_neg hk])

/-- What an action stores in a memory is held there afterwards, over what was held before. -/
theorem Holding.step (h : b.Holding k patches) (a : Action) (r : Recorder) :
    (b.step a r).2.1.Holding k (patches ++ (b.stores? r k a).toList) := by
  have hmove := b.step_moves a r
  generalize hb : (b.step a r).2.1 = b' at hmove
  cases hmove with
  | call name args | line name args =>
    have hcall := h.call name args r
    rwa [hb] at hcall
  | register | published | peek => exact h.congr rfl
  | publish mem => exact h.congr (by simp)
  | newMemory pages max => exact (h.newMemory pages max).congr rfl
  | grow mem pages => exact (h.grow mem pages).congr rfl
  | poke mem offset bytes => exact h.poke mem offset bytes r

theorem Holding.after (h : b.Holding k patches) (r : Recorder) (actions : List Action) :
    (b.after r actions).1.Holding k (patches ++ stored k b r actions) := by
  induction actions generalizing b r patches with
  | nil => exact h.congr rfl
  | cons a rest ih =>
    have hrest := ih (h.step a r) (b.step a r).2.2
    rw [List.append_assoc] at hrest
    exact hrest

theorem holding_empty (k : Nat) : empty.Holding k [] :=
  ⟨by simp [empty, Store.empty], fun _ => rfl⟩

/-! ### Sizes -/

theorem Moves.published_stays (hmove : b.Moves a b') (hp : b.store.published = some k) :
    b'.store.published = some k := by
  cases hmove with
  | publish mem =>
    rw [Store.publish_of_published hp]
    exact hp
  | register | newMemory | published | poke | peek | call | line => exact hp
  | grow => simpa using hp

theorem size_getD_grow? (m : Memory) (delta : Nat) :
    ((m.grow? delta).getD m).size =
      if m.pages + delta ≤ m.limit then m.size + delta * Memory.pageSize else m.size := by
  unfold Memory.grow?
  split <;> rfl

theorem step_grow (b : Bridge) (mem pages : Nat) (r : Recorder) :
    (b.step (.grow mem pages) r).2.1 = { b with store := (b.store.grow mem pages).2 } := by
  have hmove := b.step_moves (.grow mem pages) r
  generalize (b.step (.grow mem pages) r).2.1 = b' at hmove ⊢
  cases hmove
  rfl

/-- A memory keeps its size or grows. -/
theorem Moves.size_le (hmove : b.Moves a b') (hm : b.store.memories[k]? = some m) :
    ∃ m', b'.store.memories[k]? = some m' ∧ m.size ≤ m'.size := by
  cases hmove with
  | register | published | peek | call => exact ⟨m, hm, Nat.le_refl _⟩
  | publish mem => exact ⟨m, by simpa using hm, Nat.le_refl _⟩
  | newMemory pages max =>
    refine ⟨m, ?_, Nat.le_refl _⟩
    have hlt : k < b.store.memories.size := (Array.getElem?_eq_some_iff.mp hm).1
    simp only [Store.add, Array.getElem?_push, if_neg (Nat.ne_of_lt hlt), hm]
  | grow mem pages =>
    refine ⟨_, by rw [Store.getElem?_grow, hm]; rfl, ?_⟩
    split
    · rw [size_getD_grow?]
      split
      · exact Nat.le_add_right _ _
      · exact Nat.le_refl _
    · exact Nat.le_refl _
  | poke | line =>
    rw [Store.getElem?_modify, hm]
    split
    · exact ⟨_, rfl, Nat.le_of_eq Memory.size_write.symm⟩
    · exact ⟨m, rfl, Nat.le_refl _⟩

theorem published_stays (hp : b.store.published = some k) (r : Recorder) (actions : List Action) :
    (b.after r actions).1.store.published = some k := by
  induction actions generalizing b r with
  | nil => exact hp
  | cons a rest ih => exact ih ((b.step_moves a r).published_stays hp) _

theorem size_le_after (hm : b.store.memories[k]? = some m) (r : Recorder) (actions : List Action) :
    ∃ m', (b.after r actions).1.store.memories[k]? = some m' ∧ m.size ≤ m'.size := by
  induction actions generalizing b r m with
  | nil => exact ⟨m, hm, Nat.le_refl _⟩
  | cons a rest ih =>
    obtain ⟨m₁, hm₁, hle₁⟩ := (b.step_moves a r).size_le hm
    obtain ⟨m₂, hm₂, hle₂⟩ := ih hm₁ (b.step a r).2.2
    exact ⟨m₂, hm₂, Nat.le_trans hle₁ hle₂⟩

theorem after_append (b : Bridge) (r : Recorder) (before later : List Action) :
    b.after r (before ++ later) = (b.after r before).1.after (b.after r before).2 later :=
  List.foldl_append

/-! ### Calls -/

/-- The call is refused for its window. -/
def Refuses (b : Bridge) (c : HostCall) (r : Recorder) : Prop :=
  ∃ offset len size,
    (b.step (.call c.function.name c.args) r).1 = .error (.host (.outOfBounds offset len size))

theorem refuses_iff_refused (h : b.Registered) : b.Refuses c r ↔ c.Refused b.store console r := by
  unfold Refuses HostCall.Refused
  simp only [step_call_by_name, h.find?, HostCall.call_args]
  cases c.serveOn b.store console r with
  | mk served r' => cases served <;> simp

theorem refuses_iff (h : b.Registered) (hw : c.window? = some w)
    (hp : b.store.published = some k) (hm : b.store.memories[k]? = some m) :
    b.Refuses c r ↔ ¬ w.Fits m.size :=
  (refuses_iff_refused h).trans (HostCall.refused_iff hw (Store.memory_of_published hp hm) r)

/-- The bytes that were stored last in a range of memory, with zeros where none were. -/
def lastStored (patches : List Patch) (offset len : Nat) : List UInt8 :=
  (List.range len).map fun i => (Patch.last? patches (offset + i)).getD 0

theorem step_print_stored (h : b.Registered) (hp : b.store.published = some k)
    (hm : b.store.memories[k]? = some m) (hholds : m.Holds patches)
    (hw : (Window.ofGuest offset len).Fits m.size) :
    b.step (.call "_print" (HostCall.print offset len).args) r =
      match r.write (Text.decode
        (lastStored patches offset.toUInt32.toNat len.toUInt32.toNat)) with
      | (.ok _, r') => (.ok (.result none), b, r')
      | (.error e, r') => (.error (.host e), b, r') := by
  rw [step_print_text h hp hm hw, hholds.read]
  rfl

/-- After a publication each call finds the published memory as it is at that moment. It is refused
for its window just where that is not within the size of the memory, which never shrinks, so that a
window once within it is never refused again. A window that is printed is written as the decoding of
the bytes that were stored there last, by a poke or a line, with zeros where none were; growing
memories, with success or without, stores nothing. Of the windows that are refused, growing makes
those good that are within the new size. -/
theorem windows_are_current {lines : List String} {faults : Faults} {before later : List Action}
    (hb : empty.after (.start lines faults) before = (b, r)) (hp : b.store.published = some k)
    (hb' : b.after r later = (b', r')) :
    ∃ m m', b.store.memories[k]? = some m ∧ b'.store.memories[k]? = some m' ∧
      m.size ≤ m'.size ∧ b'.store.published = some k ∧
      m'.Holds (stored k empty (.start lines faults) (before ++ later)) ∧
      (.register ∈ before ++ later →
        (∀ (c : HostCall) (w : Window), c.window? = some w →
          (¬ w.Fits m'.size → b'.step (.call c.function.name c.args) r' =
            (.error (.host (.outOfBounds w.offset w.len m'.size)), b', r')) ∧
          (b'.Refuses c r' ↔ ¬ w.Fits m'.size) ∧ (w.Fits m.size → ¬ b'.Refuses c r')) ∧
        (∀ offset len, (Window.ofGuest offset len).Fits m'.size →
          b'.step (.call "_print" (HostCall.print offset len).args) r' =
            match r'.write (Text.decode
              (lastStored (stored k empty (.start lines faults) (before ++ later))
                offset.toUInt32.toNat len.toUInt32.toNat)) with
            | (.ok _, r'') => (.ok (.result none), b', r'')
            | (.error e, r'') => (.error (.host e), b', r'')) ∧
        ∀ mem pages, ∃ m'', (b'.step (.grow mem pages) r').2.1.store.memories[k]? = some m'' ∧
          m''.size = (if mem = k ∧ m'.pages + pages ≤ m'.limit then
            m'.size + pages * Memory.pageSize else m'.size) ∧
          ∀ (c : HostCall) (w : Window), c.window? = some w → b'.Refuses c r' →
            (¬ (b'.step (.grow mem pages) r').2.1.Refuses c r' ↔
              w.offset.toNat + w.len.toNat ≤ m''.size)) := by
  obtain ⟨hconsistent, -⟩ := after_follows consistent_empty (.start lines faults) before
  rw [hb] at hconsistent
  obtain ⟨m, hm⟩ : ∃ m, b.store.memories[k]? = some m :=
    ⟨_, Array.getElem?_eq_getElem (hconsistent.published k hp)⟩
  obtain ⟨m', hm', hle⟩ := size_le_after hm r later
  have hp' := published_stays hp r later
  have hall : empty.after (.start lines faults) (before ++ later) = (b', r') := by
    rw [after_append, hb, hb']
  obtain ⟨-, hregistered⟩ :=
    after_follows consistent_empty (.start lines faults) (before ++ later)
  have hholding := (holding_empty k).after (.start lines faults) (before ++ later)
  simp only [hb'] at hm' hp'
  simp only [hall] at hregistered hholding
  have hholds := hholding.memory m' hm'
  rw [List.nil_append] at hholds
  refine ⟨m, m', hm, hm', hle, hp', hholds, fun hreg => ?_⟩
  have hreg' := hregistered (.inr hreg)
  refine ⟨?calls, fun offset len => step_print_stored hreg' hp' hm' hholds, ?grow⟩
  case calls =>
    intro c w hw
    have hiff := refuses_iff (r := r') hreg' hw hp' hm'
    refine ⟨step_of_not_fits hreg' hw hp' hm', hiff, ?_⟩
    intro hfits hrefuses
    exact hiff.mp hrefuses (Nat.le_trans hfits hle)
  case grow =>
    intro mem pages
    have hgrown : (b'.store.grow mem pages).2.memories[k]? =
        some (if mem = k then (m'.grow? pages).getD m' else m') := by
      rw [Store.getElem?_grow, hm']
      rfl
    have hpublished : (b'.store.grow mem pages).2.published = some k :=
      Store.published_grow.trans hp'
    rw [step_grow]
    refine ⟨_, hgrown, ?_, ?_⟩
    · rw [apply_ite Memory.size, size_getD_grow?, ite_and]
    · intro c w hw _
      have hreg'' : Registered { b' with store := (b'.store.grow mem pages).2 } := hreg'
      rw [refuses_iff hreg'' hw hpublished hgrown, not_not]
      rfl

/-- In a memory of one page that can grow to two, a byte of the second is out of bounds until it has
grown. What is stored in the first page stays. -/
theorem windows_are_current_grown : ∃ b r b' r',
    empty.after (.start [] ⟨0, 0, ""⟩) [.register, .newMemory 1 (some 2), .publish 0] = (b, r) ∧
      b.after r [.poke 0 0 [0x68, 0x69], .grow 0 5] = (b', r') ∧
      b'.step (.call "_print" (HostCall.print 0 3).args) r' =
        (.ok (.result none), b', r'.after (.wrote "hi\x00")) ∧
      b'.Refuses (.print 65536 1) r' ∧
      ¬ (b'.step (.grow 0 1) r').2.1.Refuses (.print 65536 1) r' := by
  obtain ⟨b, r, hb⟩ : ∃ b r, empty.after (.start [] ⟨0, 0, ""⟩)
      [.register, .newMemory 1 (some 2), .publish 0] = (b, r) := ⟨_, _, rfl⟩
  obtain ⟨b', r', hb'⟩ : ∃ b' r', b.after r [.poke 0 0 [0x68, 0x69], .grow 0 5] = (b', r') :=
    ⟨_, _, rfl⟩
  have hp : b.store.published = some 0 := by
    cases hb
    rfl
  have hsize : ∀ m', b'.store.memories[0]? = some m' → m'.size = 65536 ∧ m'.limit = 2 := by
    cases hb
    cases hb'
    rintro _ ⟨⟩
    exact ⟨rfl, rfl⟩
  have htext : Text.decode (lastStored (stored 0 empty (.start [] ⟨0, 0, ""⟩)
      ([.register, .newMemory 1 (some 2), .publish 0] ++ [.poke 0 0 [0x68, 0x69], .grow 0 5]))
        (Int32.toUInt32 0).toNat (Int32.toUInt32 3).toNat) = "hi\x00" := by
    cbv
  have hwrite : r'.write "hi\x00" = (.ok (), r'.after (.wrote "hi\x00")) := by
    cases hb
    cases hb'
    rfl
  obtain ⟨m, m', -, hm', -, -, -, hready⟩ := windows_are_current hb hp hb'
  obtain ⟨hm'size, hlimit⟩ := hsize m' hm'
  obtain ⟨hcalls, hprints, hgrows⟩ := hready (by decide)
  obtain ⟨m'', -, hm'', hgood⟩ := hgrows 0 1
  have hrefuses : b'.Refuses (.print 65536 1) r' :=
    (hcalls _ _ rfl).2.1.mpr (by rw [hm'size]; decide)
  refine ⟨b, r, b', r', hb, hb', ?_, hrefuses, (hgood _ _ rfl hrefuses).mpr ?_⟩
  · rw [hprints 0 3 (by rw [hm'size]; decide), htext, hwrite]
  · have hgrown : m''.size = 131072 := by
      simp [hm'', Memory.pages, Memory.pageSize, hm'size, hlimit]
    rw [hgrown]
    decide

end Bridge
end ConsoleHost
