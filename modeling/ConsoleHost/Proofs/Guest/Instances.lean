import ConsoleHost.Guest.Instance
import ConsoleHost.Guest.Validity

/-! Instances of compiled modules: when their data fits, and what the names of their exports stand
for. -/
namespace ConsoleHost

/-- The bytes of the first memory; there are none without a memory. -/
def Store.firstSize (s : Store) : Nat := (s.memories[0]?.map (·.size)).getD 0

namespace Guest

variable {m : Module} {name : String} {k : Nat} {callee : Callee} {type : FuncType}
  {store : Store} {segments : List DataSegment} {d : DataSegment} {x : Export}

namespace Module

/-- The bytes of the first memory at the start. -/
def firstSize (m : Module) : Nat := (m.memories[0]?.map fun t => t.min * Memory.pageSize).getD 0

/-- Every data segment lies in the first memory. -/
def DataFits (m : Module) : Prop := ∀ d ∈ m.data, d.offset.toNat + d.bytes.length ≤ m.firstSize

/-- The export of this name is memory `k`, and that one is not shared. -/
def ExportsMemory (m : Module) (name : String) (k : Nat) : Prop :=
  ⟨name, .memory k⟩ ∈ m.exports ∧ ∃ t, m.memories[k]? = some t ∧ t.shared = false

/-- The export of this name is a function of the module, or one that it imports. -/
inductive ExportsFunc (m : Module) (name : String) : Callee → FuncType → Prop where
  | own {index : Nat} {f : Func} (he : ⟨name, .own index⟩ ∈ m.exports)
      (hf : m.funcs[index]? = some f) : ExportsFunc m name (.own index) f.type
  | imported {index : Nat} {i : Import} {type : FuncType}
      (he : ⟨name, .imported index⟩ ∈ m.exports) (hi : m.imports[index]? = some i)
      (hk : i.kind = .func type) : ExportsFunc m name (.imported i.name) type

theorem firstSize_place (store : Store) (d : DataSegment) :
    (store.modify 0 fun m => m.write d.offset.toNat d.bytes).firstSize = store.firstSize := by
  unfold Store.firstSize
  rw [Store.getElem?_modify, if_pos rfl]
  cases store.memories[0]? <;> simp

theorem placeData_of_fits
    (h : ∀ d ∈ segments, d.offset.toNat + d.bytes.length ≤ store.firstSize) :
    ∃ t, placeData store segments = .ok t ∧ t.published = store.published ∧
      t.memories.size = store.memories.size := by
  induction segments generalizing store with
  | nil => exact ⟨store, rfl, rfl, rfl⟩
  | cons d rest ih =>
    have hrest : ∀ e ∈ rest, e.offset.toNat + e.bytes.length ≤
        (store.modify 0 fun m => m.write d.offset.toNat d.bytes).firstSize := by
      intro e he
      rw [firstSize_place]
      exact h e (by simp [he])
    obtain ⟨t, ht, hp, hs⟩ := ih hrest
    refine ⟨t, ?_, hp.trans Store.published_modify, hs.trans Store.size_modify⟩
    rw [placeData, ← Store.firstSize, if_pos (h d (by simp))]
    exact ht

theorem placeData_of_not_fits (hd : d ∈ segments)
    (h : store.firstSize < d.offset.toNat + d.bytes.length) :
    placeData store segments = .error .outOfBounds := by
  induction segments generalizing store with
  | nil => cases hd
  | cons e rest ih =>
    rw [placeData, ← Store.firstSize]
    split
    · rcases List.mem_cons.mp hd with rfl | hd
      · omega
      · refine ih hd ?_
        rw [firstSize_place]
        exact h
    · rfl

theorem firstSize_initial (m : Module) (published : Option Nat) :
    Store.firstSize ⟨(m.memories.map fun t => Memory.ofPages t.min t.max).toArray, published⟩ =
      m.firstSize := by
  unfold Store.firstSize firstSize
  cases h : m.memories[0]? <;> simp [h, Memory.ofPages]

/-- An instance starts with all the memories of its module, none of them published. -/
theorem initialStore_of_fits (h : m.DataFits) : ∃ store, m.initialStore = .ok store ∧
    store.published = none ∧ store.memories.size = m.memories.length := by
  rw [DataFits, ← m.firstSize_initial none] at h
  obtain ⟨store, hs, hp, hc⟩ := placeData_of_fits h
  exact ⟨store, hs, hp, by simpa using hc⟩

theorem initialStore_of_not_fits (hd : d ∈ m.data)
    (h : m.firstSize < d.offset.toNat + d.bytes.length) :
    m.initialStore = .error .outOfBounds := by
  rw [← m.firstSize_initial none] at h
  exact placeData_of_not_fits hd h

theorem exists_of_not_dataFits (h : ¬ m.DataFits) :
    ∃ d ∈ m.data, m.firstSize < d.offset.toNat + d.bytes.length := by
  simpa [DataFits] using h

/-- No instance of a module starts with a published memory. -/
theorem initialStore_unpublished (h : m.initialStore = .ok store) :
    store.published = none ∧ store.memories.size = m.memories.length := by
  by_cases hfits : m.DataFits
  · obtain ⟨s, hs, hp, hc⟩ := initialStore_of_fits hfits
    rw [h] at hs
    cases hs
    exact ⟨hp, hc⟩
  · obtain ⟨d, hd, hsize⟩ := exists_of_not_dataFits hfits
    rw [initialStore_of_not_fits hd hsize] at h
    cases h

theorem nodup_of_repeated? {names : List String} (h : repeated? names = none) : names.Nodup := by
  induction names with
  | nil => exact .nil
  | cons name rest ih =>
    rw [repeated?] at h
    split at h
    · cases h
    · rename_i hn
      exact List.nodup_cons.mpr ⟨hn, ih h⟩

theorem nodup_exports_of_defect? (h : m.defect? = none) : (m.exports.map (·.name)).Nodup := by
  apply nodup_of_repeated?
  unfold defect? at h
  split at h
  · cases h
  · split at h
    · cases h
    · split at h
      · cases h
      · split at h
        · cases h
        · rename_i hr
          exact hr

theorem find?_name_of_nodup {exports : List Export} (hn : (exports.map (·.name)).Nodup)
    (he : x ∈ exports) : exports.find? (·.name == x.name) = some x := by
  induction exports with
  | nil => cases he
  | cons first rest ih =>
    rw [List.map_cons, List.nodup_cons] at hn
    rcases List.mem_cons.mp he with rfl | hrest
    · simp
    · have hne : first.name ≠ x.name := fun h => hn.1 (List.mem_map.mpr ⟨_, hrest, h.symm⟩)
      simp [hne, ih hn.2 hrest]

/-- In a compiled module a name stands for one export. -/
theorem export?_eq_some_iff (hn : (m.exports.map (·.name)).Nodup) {target : ExportTarget} :
    m.export? name = some ⟨name, target⟩ ↔ ⟨name, target⟩ ∈ m.exports :=
  ⟨List.mem_of_find?_eq_some, find?_name_of_nodup hn⟩

theorem name_of_export? (h : m.export? name = some x) : x.name = name := by
  simpa using List.find?_some h

theorem exportedMemory?_eq_some_iff (hn : (m.exports.map (·.name)).Nodup) :
    m.exportedMemory? name = some k ↔ m.ExportsMemory name k := by
  constructor
  · intro h
    unfold exportedMemory? at h
    split at h
    · rename_i he
      obtain rfl := name_of_export? he
      split at h
      · rename_i t ht
        split at h
        · cases h
        · rename_i hshared
          cases h
          exact ⟨(export?_eq_some_iff hn).mp he, t, ht, by simpa using hshared⟩
      · cases h
    · cases h
  · rintro ⟨he, t, ht, hshared⟩
    simp [exportedMemory?, (export?_eq_some_iff hn).mpr he, ht, hshared]

theorem exportedFunc?_eq_some_iff (hn : (m.exports.map (·.name)).Nodup) :
    m.exportedFunc? name = some (callee, type) ↔ m.ExportsFunc name callee type := by
  constructor
  · intro h
    unfold exportedFunc? at h
    split at h
    · rename_i he
      obtain rfl := name_of_export? he
      obtain ⟨f, hf, heq⟩ := Option.map_eq_some_iff.mp h
      cases heq
      exact .own ((export?_eq_some_iff hn).mp he) hf
    · rename_i he
      obtain rfl := name_of_export? he
      split at h
      · rename_i hi
        cases h
        exact .imported ((export?_eq_some_iff hn).mp he) hi rfl
      · cases h
    · cases h
  · intro h
    cases h with
    | own he hf => simp [exportedFunc?, (export?_eq_some_iff hn).mpr he, hf]
    | @imported index i _ he hi hk =>
      obtain ⟨module, name, kind⟩ := i
      cases hk
      simp [exportedFunc?, (export?_eq_some_iff hn).mpr he, hi]

theorem lt_of_exportedMemory? (h : m.exportedMemory? name = some k) : k < m.memories.length := by
  unfold exportedMemory? at h
  split at h
  · split at h
    · rename_i ht
      split at h
      · cases h
      · cases h
        exact (List.getElem?_eq_some_iff.mp ht).1
    · cases h
  · cases h

theorem ExportsMemory.unique {j : Nat} (hn : (m.exports.map (·.name)).Nodup)
    (h : m.ExportsMemory name k) (h' : m.ExportsMemory name j) : k = j := by
  rw [← exportedMemory?_eq_some_iff hn] at h h'
  exact Option.some.inj (h.symm.trans h')

theorem ExportsFunc.unique {callee' : Callee} {type' : FuncType}
    (hn : (m.exports.map (·.name)).Nodup) (h : m.ExportsFunc name callee type)
    (h' : m.ExportsFunc name callee' type') : callee = callee' ∧ type = type' := by
  rw [← exportedFunc?_eq_some_iff hn] at h h'
  exact Prod.mk.inj (Option.some.inj (h.symm.trans h'))

end Module

variable {m' : Module} {e : RunError}

theorem Module.defect?_of_validate (h : m.validate = .ok m') : m'.defect? = none := by
  unfold Module.validate at h
  split at h
  · rename_i hd
    cases h
    exact hd
  · cases h

theorem Module.reasons_of_validate (h : m.validate = .error e) :
    ∃ reasons, e = .compile reasons := by
  unfold Module.validate at h
  split at h
  · cases h
  · cases h
    exact ⟨_, rfl⟩

namespace Source

variable {decode : Decoder} {source : Source}

/-- What is accepted has no defect, whatever it was decoded from. -/
theorem defect?_of_compile (h : source.compile decode = .ok m) : m.defect? = none := by
  cases source with
  | described => exact Module.defect?_of_validate h
  | bytes file =>
    simp only [compile] at h
    split at h
    · exact Module.defect?_of_validate h
    · cases h

theorem nodup_exports_of_compile (h : source.compile decode = .ok m) :
    (m.exports.map (·.name)).Nodup :=
  Module.nodup_exports_of_defect? (defect?_of_compile h)

theorem reasons_of_compile (h : source.compile decode = .error e) :
    ∃ reasons, e = .compile reasons := by
  cases source with
  | described => exact Module.reasons_of_validate h
  | bytes file =>
    simp only [compile] at h
    split at h
    · exact Module.reasons_of_validate h
    · cases h
      exact ⟨_, rfl⟩

end Source
end Guest
end ConsoleHost
