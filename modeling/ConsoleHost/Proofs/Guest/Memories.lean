import Mathlib
import ConsoleHost.Proofs.Guest.Publication
import ConsoleHost.Proofs.Host.Storing

/-! Memories of a running guest: its own statements change the first one, and the host stores lines
in the exported one. -/
namespace ConsoleHost

open Recorder

theorem Store.SameButFirst.trans {s t u : Store} (h : s.SameButFirst t) (h' : t.SameButFirst u) :
    s.SameButFirst u := by
  refine ⟨h'.published.trans h.published, h'.count.trans h.count, ?_⟩
  intro k hk
  rw [h'.others k hk, h.others k hk]

namespace Guest

namespace Machine

variable {σ : Type} {m : Module} {c : Console HostError σ} {s s' : Machine} {t t' u : σ}
  {calls : List (HostCall × σ)} {call : HostCall} {task : Task} {store : Store} {mem : Memory}
  {patches : List Patch} {k : Nat}

theorem serves_of_step {value : Option Int32} (h : s.step m = .call call s')
    (hs : call.serveOn s'.store c t = (.ok (value, store), t')) :
    HostCall.Serves c s.store t call store :=
  store_of_step_call h ▸ HostCall.serves_of_serveOn hs

/-- Steps and served calls lead from one machine to another. The calls come with the console as it
was when they were made. -/
inductive Leads (m : Module) (c : Console HostError σ) :
    Machine → σ → List (HostCall × σ) → Machine → σ → Prop where
  | refl (s : Machine) (t : σ) : Leads m c s t [] s t
  | next {s s' s'' : Machine} {t t' : σ} {calls : List (HostCall × σ)} (h : s.step m = .next s')
      (hx : Leads m c s' t calls s'' t') : Leads m c s t calls s'' t'
  | served {s s' s'' : Machine} {t t' u : σ} {call : HostCall} {result : Option Int32}
      {store : Store} {calls : List (HostCall × σ)} (h : s.step m = .call call s')
      (hs : call.serveOn s'.store c t = (.ok (result, store), t'))
      (hx : Leads m c (s'.resume result store) t' calls s'' u) :
      Leads m c s t ((call, t) :: calls) s'' u

/-- A function that returns has been led to its last step. -/
theorem Executes.leads (h : Executes m c s t calls (.returned store) u) :
    ∃ s', Leads m c s t calls s' u ∧ s'.step m = .returned store := by
  generalize he : Ending.returned store = ending at h
  induction h with
  | returned hs =>
    cases he
    exact ⟨_, .refl _ _, hs⟩
  | trapped | refused => cases he
  | next hs _ ih =>
    obtain ⟨s', hx, hlast⟩ := ih he
    exact ⟨s', .next hs hx, hlast⟩
  | served hs hserve _ ih =>
    obtain ⟨s', hx, hlast⟩ := ih he
    exact ⟨s', .served hs hserve hx, hlast⟩

theorem Leads.published_eq (h : Leads m c s t calls s' t') :
    s'.store.published = s.store.published := by
  induction h with
  | refl => rfl
  | next hs _ ih => exact ih.trans (step_confined m _ _ (congrArg Step.store? hs)).published
  | served hs hserve _ ih =>
    exact ih.trans (serves_of_step hs hserve).published_eq

/-- Memories that are neither the first nor published stay as they are. -/
theorem Leads.other_eq (h : Leads m c s t calls s' t') (hk : k ≠ 0)
    (hp : s.store.published ≠ some k) : s'.store.memories[k]? = s.store.memories[k]? := by
  induction h with
  | refl => rfl
  | next hs _ ih =>
    obtain ⟨hpublished, -, hothers⟩ := step_confined m _ _ (congrArg Step.store? hs)
    exact (ih (hpublished ▸ hp)).trans (hothers k hk)
  | served hs hserve _ ih =>
    have hserves := serves_of_step hs hserve
    have hp' := hserves.published_eq ▸ hp
    exact (ih hp').trans (hserves.unpublished_eq hp)

/-- What calls have stored, in order. -/
def stored (c : Console HostError σ) (calls : List (HostCall × σ)) : List Patch :=
  calls.filterMap fun x => x.1.patch? c x.2

theorem exists_of_mem_stored {q : Patch} (h : q ∈ stored c calls) :
    ∃ x ∈ calls, x.1.patch? c x.2 = some q := List.mem_filterMap.mp h

/-- A memory that is not the first keeps its size. If it is the published one, it holds the lines
that are stored. -/
theorem Leads.holds (h : Leads m c s t calls s' t') (hk : k ≠ 0)
    (hp : ∀ j, s.store.published = some j → j = k) (hm : s.store.memories[k]? = some mem)
    (hh : mem.Holds patches) :
    ∃ mem', s'.store.memories[k]? = some mem' ∧ mem'.size = mem.size ∧
      mem'.Holds (patches ++ stored c calls) := by
  induction h generalizing mem patches with
  | refl => exact ⟨mem, hm, rfl, by simpa [stored] using hh⟩
  | next hs _ ih =>
    obtain ⟨hpublished, -, hothers⟩ := step_confined m _ _ (congrArg Step.store? hs)
    exact ih (hpublished ▸ hp) ((hothers k hk).trans hm) hh
  | @served s s' s'' t t' u call result store calls hs hserve hx ih =>
    have hserves := serves_of_step hs hserve
    obtain ⟨mem₁, hm₁, hsize₁, hh₁⟩ := hserves.holds hp hm hh
    obtain ⟨mem₂, hm₂, hsize₂, hh₂⟩ := ih (hserves.published_eq ▸ hp) hm₁ hh₁
    refine ⟨mem₂, hm₂, hsize₂.trans hsize₁, ?_⟩
    have hstored : stored c ((call, t) :: calls) = (call.patch? c t).toList ++ stored c calls := by
      cases hpatch : call.patch? c t <;> simp [stored, hpatch]
    rw [hstored, ← List.append_assoc]
    exact hh₂

end Machine

open Machine (Leads stored exists_of_mem_stored)

namespace Module

variable {m : Module} {store t : Store} {segments : List DataSegment} {k : Nat} {type : MemoryType}

theorem sameButFirst_of_placeData (h : placeData store segments = .ok t) : store.SameButFirst t := by
  induction segments generalizing store with
  | nil =>
    cases h
    exact .refl _
  | cons d rest ih =>
    rw [placeData] at h
    split at h
    · exact (store.sameButFirst_modify _).trans (ih h)
    · cases h

/-- Data go into the first memory; the others start with zeros. -/
theorem memory_of_initialStore (h : m.initialStore = .ok store) (hk : k ≠ 0)
    (ht : m.memories[k]? = some type) :
    store.memories[k]? = some (.ofPages type.min type.max) := by
  rw [(sameButFirst_of_placeData h).others k hk]
  simp [ht]

theorem export?_of_exportedMemory? {name : String} (h : m.exportedMemory? name = some k) :
    m.export? name = some ⟨name, .memory k⟩ := by
  unfold exportedMemory? at h
  split at h
  · rename_i he
    obtain rfl := name_of_export? he
    split at h
    · split at h <;> cases h
      exact he
    · cases h
  · cases h

end Module

section Runs

variable {m : Module} {p : Program} {r r' : Recorder} {store : Store} {s : Machine}
  {calls : List (HostCall × Recorder)} {k : Nat} {type : MemoryType} {callee : Callee}

/-- The start function changes no memory but the first. -/
theorem Started.memory_eq (h : Started m r store r') (hk : k ≠ 0)
    (ht : m.memories[k]? = some type) : store.memories[k]? = some (.ofPages type.min type.max) := by
  cases h with
  | skipped _ hd => exact Module.memory_of_initialStore hd hk ht
  | returned _ hd hx =>
    obtain ⟨s', hleads, hlast⟩ := hx.leads
    rw [(Machine.step_confined m _ _ (congrArg Step.store? hlast)).others k hk,
      hleads.other_eq hk ?_]
    · exact Module.memory_of_initialStore hd hk ht
    · rw [Machine.start, (Module.initialStore_unpublished hd).1]
      rintro ⟨⟩

namespace Program

/-- The memory that is published is the one that is exported. -/
theorem eq_of_required {j : Nat} (h : p.required = .ok (j, callee))
    (hk : p.module.export? p.config.memoryExport = some ⟨p.config.memoryExport, .memory k⟩) :
    j = k := by
  unfold required at h
  split at h
  · cases h
  · rename_i hj
    rw [Module.export?_of_exportedMemory? hj] at hk
    cases hk
    split at h
    · cases h
    · split at h <;> cases h
      rfl

theorem publish_of_started (h : Started p.module r store r') (hr : p.required = .ok (k, callee)) :
    (store.publish k).2 = store.publishing (some k) := by
  obtain ⟨hp, hc⟩ := h.unpublished
  exact Store.publish_of_unpublished hp (hc ▸ lt_of_required hr)

/-- A machine that a run comes to, in the start function or in the entry point, with the calls that
were served in that function. -/
inductive Reaches (p : Program) (r : Recorder) :
    List (HostCall × Recorder) → Machine → Recorder → Prop where
  | starting {index : Nat} {store : Store} {calls : List (HostCall × Recorder)} {s : Machine}
      {r' : Recorder} (hl : ∀ i ∈ p.module.imports, i.Standard)
      (hs : p.module.start = some index) (hd : p.module.initialStore = .ok store)
      (hx : Leads p.module console (.start (.own index) store) r calls s r') :
      Reaches p r calls s r'
  | running {store : Store} {k : Nat} {callee : Callee} {calls : List (HostCall × Recorder)}
      {s : Machine} {r' r'' : Recorder} (hl : ∀ i ∈ p.module.imports, i.Standard)
      (hs : Started p.module r store r') (hr : p.required = .ok (k, callee))
      (hx : Leads p.module console (.start callee (store.publish k).2) r' calls s r'') :
      Reaches p r calls s r''

/-- Nothing but the exported memory is ever published. -/
theorem Reaches.published (h : p.Reaches r calls s r')
    (hk : p.module.export? p.config.memoryExport = some ⟨p.config.memoryExport, .memory k⟩) :
    s.store.published = none ∨ s.store.published = some k := by
  cases h with
  | starting _ _ hd hx => exact .inl (hx.published_eq.trans (Module.initialStore_unpublished hd).1)
  | running _ hs hr hx =>
    obtain rfl := eq_of_required hr hk
    rw [publish_of_started hs hr] at hx
    exact .inr hx.published_eq

/-- An exported memory that is not the first keeps its size and holds the lines that are stored in
it. -/
theorem Reaches.memory (h : p.Reaches r calls s r')
    (hk : p.module.export? p.config.memoryExport = some ⟨p.config.memoryExport, .memory k⟩)
    (ht : p.module.memories[k]? = some type) (h0 : k ≠ 0) :
    ∃ m, s.store.memories[k]? = some m ∧ m.size = type.min * Memory.pageSize ∧
      m.Holds (stored console calls) := by
  have hholds := Memory.holds_ofPages type.min type.max
  cases h with
  | starting _ _ hd hx =>
    refine hx.holds h0 ?_ (Module.memory_of_initialStore hd h0 ht) hholds
    rw [Machine.start, (Module.initialStore_unpublished hd).1]
    rintro _ ⟨⟩
  | running _ hs hr hx =>
    obtain rfl := eq_of_required hr hk
    rw [publish_of_started hs hr] at hx
    refine hx.holds h0 ?_ (hs.memory_eq h0 ht) hholds
    rintro _ ⟨⟩
    rfl

/-- A printed window that no line was stored in is written as characters U+0000. -/
theorem prints_nulls {mem : Memory} {offset len : Int32}
    (hp : s.store.published = some k) (hm : s.store.memories[k]? = some mem)
    (hholds : mem.Holds (stored console calls))
    (hw : (Window.ofGuest offset len).Fits mem.size)
    (hnone : ∀ q ∈ stored console calls, ∀ i < len.toUInt32.toNat,
      q.byte? (offset.toUInt32.toNat + i) = none) :
    (HostCall.print offset len).serveOn s.store console r' =
        HostCall.writing s.store (.say (Text.nulls len.toUInt32.toNat)) console r' ∧
      (HostCall.println offset len).serveOn s.store console r' =
        HostCall.writing s.store (Host.line (Text.nulls len.toUInt32.toNat)) console r' := by
  have hmem := Store.memory_of_published hp hm
  have hzeros := hholds.read_zeros hnone
  have htext : Text.decode (mem.read offset.toUInt32.toNat len.toUInt32.toNat) =
      Text.nulls len.toUInt32.toNat := by
    rw [hzeros, Text.decode_zeros]
  constructor
  · rw [HostCall.serveOn_of_onBytes (w := .ofGuest offset len) (f := Host.print) rfl hmem hw]
    simp only [Host.print, Window.ofGuest, htext]
    rfl
  · rw [HostCall.serveOn_of_onBytes (w := .ofGuest offset len) (f := Host.println) rfl hmem hw]
    simp only [Host.println, Window.ofGuest, htext]
    rfl

/-- A guest with two memories, which grows the first and reads a line into the second. -/
def growThenRead : Program where
  module :=
    { Module.empty with
      imports := [⟨"std", "readln", .func ⟨[.i32, .i32], [.i32]⟩⟩]
      memories := [⟨1, none, false⟩, ⟨1, none, false⟩]
      funcs :=
        [⟨⟨[], []⟩, [.grow (.int 1), .call (.imported "readln") [.int 0, .int 3]]⟩]
      exports := [⟨"memory", .memory 1⟩, ⟨"main", .own 0⟩] }
  config := {}

/-- It comes to where the first memory has two pages, and the line is in the second. -/
theorem growThenRead_reaches : ∃ calls s r,
    growThenRead.Reaches (.start ["hi"] ⟨0, 0, ""⟩) calls s r ∧ s.memorySize = 131072 ∧
      s.store.published = some 1 ∧ stored console calls = [⟨0, [0x68, 0x69]⟩] := by
  have hstandard : ∀ i ∈ growThenRead.module.imports, i.Standard := by
    intro i hi
    obtain rfl := List.mem_singleton.mp hi
    exact ⟨.readln, rfl⟩
  have hrequired : growThenRead.required = .ok (1, .own 0) := by cbv
  refine ⟨_, _, _, .running hstandard (.skipped rfl rfl) hrequired
    (.next rfl <| .next rfl <| .next rfl <| .next rfl <| .next rfl <| .next rfl <| .next rfl <|
      .served rfl rfl <| .refl _ _), ?_, ?_, ?_⟩
  · rfl
  · rfl
  · rfl

end Program
end Runs
end Guest
end ConsoleHost
