import ConsoleHost.Proofs.Guest.Stages
import ConsoleHost.Proofs.Guest.Steps
import ConsoleHost.Proofs.Host.Refinement

/-! Publication: a function that runs before a memory is published does what it does afterwards, up
to its first call that needs a memory. With a published memory no call lacks one. -/
namespace ConsoleHost

open Recorder

namespace Store

variable {s : Store} {k : Nat}

theorem publish_of_unpublished (hp : s.published = none) (hk : k < s.memories.size) :
    (s.publish k).2 = s.publishing (some k) := by
  simp only [publish, hp, if_pos hk, publishing]

theorem publishing_none (hp : s.published = none) (p : Option Nat) :
    (s.publishing p).publishing none = s := by
  obtain ⟨memories, published⟩ := s
  cases hp
  rfl

theorem exists_memory (hp : s.published = some k) (hk : k < s.memories.size) :
    ∃ m, s.memory = .ok (k, m) :=
  ⟨_, memory_of_published hp (Array.getElem?_eq_getElem hk)⟩

end Store

namespace HostCall

variable {σ : Type} {call : HostCall} {s t : Store} {c : Console HostError σ} {u v : σ}
  {value : Option Int32} {k : Nat} {r r' : Recorder}

theorem window?_of_no_memory (h : call.function.usesMemory = false) : call.window? = none := by
  cases call with
  | readln | print | println => cases h
  | ln | printInt | printlnInt | printReal | printlnReal | printIntPad | printRealPad => rfl

theorem exists_window (h : call.function.usesMemory = true) : ∃ w, call.window? = some w := by
  cases call with
  | readln | print | println => exact ⟨_, rfl⟩
  | ln | printInt | printlnInt | printReal | printlnReal | printIntPad | printRealPad => cases h

/-- A call that needs no memory is served alike whichever is published. -/
theorem serveOn_publishing {served : Served} (h : call.function.usesMemory = false)
    (hs : call.serveOn s c u = (served, v)) (p : Option Nat) :
    call.serveOn (s.publishing p) c u =
      (served.map fun (value, t) => (value, t.publishing p), v) := by
  obtain ⟨d, hserve, -⟩ := serve_of_no_window (window?_of_no_memory h)
  simp only [serveOn, hserve, Dialogue.run, onConsole, Dialogue.run_bind] at hs ⊢
  cases hrun : d.run c (c.note (.called call) u) with
  | mk result u =>
    rw [hrun] at hs
    cases result <;> cases hs <;> rfl

/-- One that needs a memory fails without one, and asks nothing of the console. -/
theorem serveOn_of_unpublished (h : call.function.usesMemory = true) (hp : s.published = none)
    (c : Console HostError σ) (u : σ) :
    call.serveOn s c u = (.error .memoryUnavailable, c.note (.called call) u) := by
  obtain ⟨w, hw⟩ := exists_window h
  simp only [serveOn, serve_of_unpublished hw hp, Dialogue.run]

theorem serveOn_keeps (h : call.serveOn s c u = (.ok (value, t), v)) :
    t.published = s.published ∧ t.memories.size = s.memories.size := by
  unfold serveOn at h
  split at h
  · rename_i hrun
    cases h
    exact (serve_keeps s call).of_run hrun value t rfl
  · cases h

theorem events_serveOn {served : Served} (h : call.serveOn s console r = (served, r')) :
    r.events.toList <+: r'.events.toList := by
  have hle := events_run (call.serve s) r
  unfold serveOn at h
  split at h <;> rename_i hrun <;> cases h <;> rwa [hrun] at hle

theorem serveOn_ne_memoryUnavailable {e : HostError}
    (h : call.serveOn s console r = (.error e, r')) (hp : s.published = some k)
    (hk : k < s.memories.size) : e ≠ .memoryUnavailable := by
  obtain ⟨m, hm⟩ := Store.exists_memory hp hk
  rintro rfl
  unfold serveOn at h
  split at h
  · rename_i hrun
    cases h
    exact (serve_ne_memoryUnavailable hm call).of_run hrun rfl
  · rename_i hrun
    cases h
    cases error_of_run hrun

end HostCall

namespace Guest

namespace Machine

/-- The store of an ending, if it has one, with another memory published. -/
def Ending.publishing : Ending → Option Nat → Ending
  | .returned store, p => .returned (store.publishing p)
  | .trapped t, _ => .trapped t
  | .failed e, _ => .failed e
  | .unfinished, _ => .unfinished

@[simp] theorem Ending.outcome_publishing (ending : Ending) (p : Option Nat) :
    (ending.publishing p).outcome = ending.outcome := by
  cases ending <;> rfl

variable {σ : Type} {m m' : Module} {c : Console HostError σ} {s : Machine} {t u v : σ}
  {calls before after : List (HostCall × σ)} {call : HostCall} {ending : Ending} {k : Nat}
  {store : Store} {r r' : Recorder} {recorded : List (HostCall × Recorder)}

theorem Executes.of_funcs (hf : m'.funcs = m.funcs) (h : Executes m c s t calls ending u) :
    Executes m' c s t calls ending u := by
  induction h with
  | returned hs => exact .returned ((step_congr hf _).trans hs)
  | trapped hs => exact .trapped ((step_congr hf _).trans hs)
  | next hs _ ih => exact .next ((step_congr hf _).trans hs) ih
  | served hs hserve _ ih => exact .served ((step_congr hf _).trans hs) hserve ih
  | refused hs hserve => exact .refused ((step_congr hf _).trans hs) hserve

theorem step_of_publishing {step : Step} (h : s.step m = step) (p : Option Nat) :
    (s.publishing p).step m = step.publishing p := by
  rw [step_publishing, h]

/-- An execution without calls that need a memory is the same whichever is published. -/
theorem Executes.publishing (h : Executes m c s t calls ending u)
    (hc : ∀ x ∈ calls, x.1.function.usesMemory = false) (p : Option Nat) :
    Executes m c (s.publishing p) t calls (ending.publishing p) u := by
  induction h with
  | returned hs => exact .returned (step_of_publishing hs p)
  | trapped hs => exact .trapped (step_of_publishing hs p)
  | next hs _ ih => exact .next (step_of_publishing hs p) (ih hc)
  | served hs hserve _ ih =>
    have hfree := hc _ List.mem_cons_self
    exact .served (step_of_publishing hs p) (HostCall.serveOn_publishing hfree hserve p)
      (ih fun x hx => hc x (List.mem_cons_of_mem _ hx))
  | refused hs hserve =>
    have hfree := hc _ List.mem_cons_self
    exact .refused (step_of_publishing hs p) (HostCall.serveOn_publishing hfree hserve p)

/-- With no published memory, an execution ends at its first call that needs one. -/
theorem Executes.unpublished (h : Executes m c s t calls ending u)
    (hcalls : calls = before ++ (call, v) :: after)
    (hbefore : ∀ x ∈ before, x.1.function.usesMemory = false)
    (hcall : call.function.usesMemory = true) :
    Executes m c (s.publishing none) t (before ++ [(call, v)]) (.failed .memoryUnavailable)
      (c.note (.called call) v) := by
  induction h generalizing before with
  | returned | trapped => simp at hcalls
  | next hs _ ih => exact .next (step_of_publishing hs none) (ih hcalls hbefore)
  | served hs hserve _ ih =>
    cases before with
    | nil =>
      cases hcalls
      exact .refused (step_of_publishing hs none) (HostCall.serveOn_of_unpublished hcall rfl c _)
    | cons first rest =>
      cases hcalls
      have hfree := hbefore _ List.mem_cons_self
      exact .served (step_of_publishing hs none) (HostCall.serveOn_publishing hfree hserve none)
        (ih rfl fun x hx => hbefore x (List.mem_cons_of_mem _ hx))
  | refused hs _ =>
    cases before with
    | nil =>
      cases hcalls
      exact .refused (step_of_publishing hs none) (HostCall.serveOn_of_unpublished hcall rfl c _)
    | cons first rest => simp at hcalls

/-- A function that returns leaves every memory in its place, and the published one published. -/
theorem Executes.keeps (h : Executes m c s t calls (.returned store) u) :
    store.published = s.store.published ∧ store.memories.size = s.store.memories.size := by
  generalize he : Ending.returned store = ending at h
  induction h with
  | returned hs =>
    cases he
    obtain ⟨hp, hc, -⟩ := step_confined m _ _ (congrArg Step.store? hs)
    exact ⟨hp, hc⟩
  | trapped | refused => cases he
  | next hs _ ih =>
    obtain ⟨hp, hc, -⟩ := step_confined m _ _ (congrArg Step.store? hs)
    exact ⟨(ih he).1.trans hp, (ih he).2.trans hc⟩
  | served hs hserve _ ih =>
    obtain ⟨hp, hc, -⟩ := step_confined m _ _ (congrArg Step.store? hs)
    have hkept := HostCall.serveOn_keeps hserve
    exact ⟨(ih he).1.trans (hkept.1.trans hp), (ih he).2.trans (hkept.2.trans hc)⟩

/-- With a published memory, no call of an execution lacks one. -/
theorem Executes.ne_memoryUnavailable (h : Executes m console s r recorded ending r')
    (hp : s.store.published = some k) (hk : k < s.store.memories.size) :
    ending ≠ .failed .memoryUnavailable := by
  induction h with
  | returned | trapped => nofun
  | next hs _ ih =>
    obtain ⟨hp', hc, -⟩ := step_confined m _ _ (congrArg Step.store? hs)
    exact ih (hp'.trans hp) (hc ▸ hk)
  | served hs hserve _ ih =>
    obtain ⟨hp', hc, -⟩ := step_confined m _ _ (congrArg Step.store? hs)
    have hkept := HostCall.serveOn_keeps hserve
    exact ih (hkept.1.trans (hp'.trans hp)) (by rw [resume, hkept.2, hc]; exact hk)
  | refused hs hserve =>
    obtain ⟨hp', hc, -⟩ := step_confined m _ _ (congrArg Step.store? hs)
    intro he
    cases he
    exact HostCall.serveOn_ne_memoryUnavailable hserve (hp'.trans hp) (hc ▸ hk) rfl

/-- Events are only added. -/
theorem Executes.events_le (h : Executes m console s r recorded ending r') :
    r.events.toList <+: r'.events.toList ∧ ∀ x ∈ recorded, x.2.events.toList <+: r'.events.toList := by
  induction h with
  | returned | trapped => simp
  | next _ _ ih => exact ih
  | served _ hserve _ ih =>
    have hle := (HostCall.events_serveOn hserve).trans ih.1
    refine ⟨hle, ?_⟩
    intro x hx
    rcases List.mem_cons.mp hx with rfl | hx
    · exact hle
    · exact ih.2 x hx
  | refused _ hserve =>
    have hle := HostCall.events_serveOn hserve
    refine ⟨hle, ?_⟩
    intro x hx
    rw [List.mem_singleton.mp hx]
    exact hle

end Machine

section Programs

open Machine (Executes Ending)

variable {m : Module} {callee : Callee} {f : Func} {index k : Nat} {store : Store}
  {p a b : Program} {r r' r'' : Recorder} {outcome : Outcome}

namespace Module

/-- The function returns, and does nothing else. -/
def Idle (m : Module) (callee : Callee) : Prop :=
  ∀ store r, Executes m console (.start callee store) r [] (.returned store) r

theorem idle_of_empty (hf : m.funcs[index]? = some f) (hb : f.body = []) :
    m.Idle (.own index) := by
  intro store r
  have hcall : (Machine.start (.own index) store).step m =
      .next ⟨⟨[.block []], [], 0, f.type.results.length⟩, [⟨[], [], 0, 0⟩],
        Machine.depth - 1, store⟩ := by
    simp [Machine.step, Machine.start, Machine.perform, Machine.invoke, hf, Machine.enter, hb,
      Machine.depth, Frame.pop]
  -- the empty body is done, the function is left, and then the frame that called it
  exact .next hcall (.next rfl (.next rfl (.returned rfl)))

end Module

/-- The start function publishes no memory and adds none. -/
theorem Started.unpublished (h : Started m r store r') :
    store.published = none ∧ store.memories.size = m.memories.length := by
  cases h with
  | skipped _ hd => exact Module.initialStore_unpublished hd
  | returned _ hd hx =>
    obtain ⟨hp, hc⟩ := Module.initialStore_unpublished hd
    obtain ⟨hp', hc'⟩ := hx.keeps
    exact ⟨hp'.trans hp, hc'.trans hc⟩

namespace Program

theorem lt_of_required (h : p.required = .ok (k, callee)) : k < p.module.memories.length := by
  unfold required at h
  split at h
  · cases h
  · rename_i hk
    split at h
    · cases h
    · split at h
      · cases h
        exact Module.lt_of_exportedMemory? hk
      · cases h

/-- The start function, if there is one, has returned, and then the entry point has made these calls
and come to this ending. -/
def EntryExecutes (p : Program) (r : Recorder) (calls : List (HostCall × Recorder))
    (ending : Ending) (r'' : Recorder) : Prop :=
  ∃ store r' k callee, Started p.module r store r' ∧ p.required = .ok (k, callee) ∧
    Executes p.module console (.start callee (store.publish k).2) r' calls ending r''

/-- Two programs that differ in when they run a function: the first runs it as the start function,
before an entry point that does nothing, and the second runs it as the entry point. -/
structure Twins (a b : Program) (index : Nat) : Prop where
  imports : a.module.imports = b.module.imports
  memories : a.module.memories = b.module.memories
  data : a.module.data = b.module.data
  funcs : a.module.funcs = b.module.funcs
  linked : ∀ i ∈ b.module.imports, i.Standard
  fits : b.module.DataFits
  start : a.module.start = some index
  idle : ∃ k callee, a.required = .ok (k, callee) ∧ a.module.Idle callee
  unstarted : b.module.start = none
  entry : ∃ k, b.required = .ok (k, .own index)

theorem runOn_of_loaded {fuel : Nat} (hlinked : ∀ i ∈ p.module.imports, i.Standard)
    (hd : p.module.initialStore = .ok store) :
    p.runOn fuel console r =
      conclude ((p.callStart fuel store (p.callEntry fuel)).run console r) :=
  runOn_of_data (Import.linkAll_eq_ok_iff.mpr hlinked) hd fuel

/-- Without a start function, a run ends as its entry point does. -/
theorem Ends.of_unstarted (h : p.Ends console r (outcome, r''))
    (hlinked : ∀ i ∈ p.module.imports, i.Standard) (hd : p.module.initialStore = .ok store)
    (hs : p.module.start = none) (hr : p.required = .ok (k, callee)) :
    ∃ calls ending,
      Executes p.module console (.start callee (store.publish k).2) r calls ending r'' ∧
        outcome = ending.outcome := by
  obtain ⟨hu, fuel, hrun⟩ := h
  rw [runOn_of_loaded hlinked hd, callStart, hs] at hrun
  exact executes_of_callEntry hr hrun hu

/-- Before an idle entry point, a run ends as its start function does. -/
theorem Ends.of_idle (h : p.Ends console r (outcome, r''))
    (hlinked : ∀ i ∈ p.module.imports, i.Standard) (hd : p.module.initialStore = .ok store)
    (hs : p.module.start = some index) (hr : p.required = .ok (k, callee))
    (hidle : p.module.Idle callee) :
    ∃ calls ending, Executes p.module console (.start (.own index) store) r calls ending r'' ∧
      outcome = ending.outcome := by
  obtain ⟨hu, fuel, hrun⟩ := h
  rw [runOn_of_loaded hlinked hd] at hrun
  obtain ⟨store', r', hstarted, hentry⟩ | ⟨i, calls, ending, e, hi, hx, he, ho⟩ :=
    started_or_failed hd hrun hu
  · obtain ⟨calls, hx⟩ := hstarted.executes hs hd
    obtain ⟨_, _, hy, ho⟩ := executes_of_callEntry hr hentry hu
    obtain ⟨-, rfl, rfl⟩ := (hidle _ _).unique hy
    exact ⟨calls, _, hx, ho⟩
  · obtain rfl := Option.some.inj (hs.symm.trans hi)
    exact ⟨calls, ending, hx, ho.trans (Ending.outcome_of_error? he).symm⟩

theorem callEntry_ne_memoryUnavailable {fuel : Nat} (hs : Started p.module r store r')
    (hentry : conclude ((p.callEntry fuel store).run console r') = (outcome, r''))
    (hu : outcome ≠ .unfinished) : outcome ≠ .failed (.host .memoryUnavailable) := by
  cases hr : p.required with
  | error e =>
    rw [conclude_callEntry_of_error hr] at hentry
    cases hentry
    rintro ⟨⟩
    obtain ⟨_, _, hr'⟩ | ⟨_, hr'⟩ | ⟨_, hr'⟩ := p.required_cases <;> rw [hr] at hr' <;> cases hr'
  | ok entry =>
    obtain ⟨k, callee⟩ := entry
    obtain ⟨calls, ending, hx, rfl⟩ := executes_of_callEntry hr hentry hu
    obtain ⟨hp, hc⟩ := hs.unpublished
    have hk : k < store.memories.size := hc ▸ lt_of_required hr
    rw [Store.publish_of_unpublished hp hk] at hx
    have hne := hx.ne_memoryUnavailable rfl hk
    cases ending with
    | failed e =>
      rintro ⟨⟩
      exact hne rfl
    | returned | trapped | unfinished => nofun

/-- Once the start function has returned, a run does not lack a memory. -/
theorem Ends.ne_memoryUnavailable (h : p.Ends console r (outcome, r''))
    (hs : Started p.module r store r') : outcome ≠ .failed (.host .memoryUnavailable) := by
  obtain ⟨hu, fuel, hrun⟩ := h
  cases hl : Import.linkAll .standard p.module.imports with
  | ok _ =>
    obtain ⟨first, hd⟩ := hs.placed
    rw [runOn_of_data hl hd] at hrun
    obtain ⟨store', s, hs', hentry⟩ | ⟨i, calls, ending, e, hi, hx, he, rfl⟩ :=
      started_or_failed hd hrun hu
    · exact callEntry_ne_memoryUnavailable hs' hentry hu
    · obtain ⟨_, hy⟩ := hs.executes hi hd
      obtain ⟨-, rfl, -⟩ := hx.unique hy
      cases he
  | error e =>
    rw [runOn_of_linkAll_error hl] at hrun
    cases hrun
    nofun

variable {lines : List String} {faults : Faults} {outcomeA outcomeB : Outcome} {rA rB : Recorder}

/-- A function that is run as the start function does what it does as the entry point, up to its
first call that needs a memory; there the run ends, as none has been published yet. A run whose start
function has returned, if there is one, never lacks a memory. -/
theorem Twins.same_up_to_memory (ht : a.Twins b index)
    (ha : a.Ends console (.start lines faults) (outcomeA, rA))
    (hb : b.Ends console (.start lines faults) (outcomeB, rB)) :
    (∃ calls ending, b.EntryExecutes (.start lines faults) calls ending rB ∧
      (((∀ x ∈ calls, x.1.function.usesMemory = false) ∧ outcomeA = outcomeB ∧ rA = rB) ∨
        ∃ before call after, calls = before ++ (call, rA) :: after ∧
          (∀ x ∈ before, x.1.function.usesMemory = false) ∧ call.function.usesMemory = true ∧
          rA.events.toList <+: rB.events.toList ∧
          outcomeA = .failed (.host .memoryUnavailable))) ∧
    ∀ (p : Program) (r r' r'' : Recorder) (store : Store) (outcome : Outcome),
      Started p.module r store r' → p.Ends console r (outcome, r'') →
        outcome ≠ .failed (.host .memoryUnavailable) := by
  refine ⟨?_, fun p r r' r'' store outcome hs h => h.ne_memoryUnavailable hs⟩
  obtain ⟨store, hd, hp, hc⟩ := Module.initialStore_of_fits ht.fits
  obtain ⟨k, hentry⟩ := ht.entry
  obtain ⟨k', callee, hidle, hreturns⟩ := ht.idle
  have hd' : a.module.initialStore = .ok store := by
    rw [Module.initialStore, ht.memories, ht.data]
    exact hd
  obtain ⟨calls, ending, hx, rfl⟩ := hb.of_unstarted ht.linked hd ht.unstarted hentry
  obtain ⟨_, _, hy, rfl⟩ := ha.of_idle (ht.imports ▸ ht.linked) hd' ht.start hidle hreturns
  refine ⟨calls, ending, ⟨store, _, k, _, .skipped ht.unstarted hd, hentry, hx⟩, ?_⟩
  rw [Store.publish_of_unpublished hp (hc ▸ lt_of_required hentry)] at hx
  have hstart : (Machine.start (.own index) (store.publishing (some k))).publishing none =
      .start (.own index) store := by
    rw [Machine.publishing, Machine.start, Store.publishing_none hp]
    rfl
  cases hfind : calls.find? (·.1.function.usesMemory) with
  | none =>
    have hfree : ∀ x ∈ calls, x.1.function.usesMemory = false := by simpa using hfind
    have hz := (hx.publishing hfree none).of_funcs ht.funcs
    rw [hstart] at hz
    obtain ⟨-, rfl, rfl⟩ := hy.unique hz
    exact .inl ⟨hfree, by simp, rfl⟩
  | some first =>
    obtain ⟨hcall, before, after, hcalls, hbefore⟩ := List.find?_eq_some_iff_append.mp hfind
    have hbefore : ∀ x ∈ before, x.1.function.usesMemory = false := by simpa using hbefore
    have hz := (hx.unpublished hcalls hbefore hcall).of_funcs ht.funcs
    rw [hstart] at hz
    obtain ⟨-, rfl, rfl⟩ := hy.unique hz
    exact .inr ⟨before, first.1, after, hcalls, hbefore, hcall,
      hx.events_le.2 first (by simp [hcalls]), rfl⟩

/-- A guest with a function that writes a newline and then an empty range of memory, and one that
does nothing. -/
def newlineThenMemory (start : Option Nat) (entry : Nat) : Program where
  module :=
    { Module.empty with
      imports := [⟨"std", "_ln", .func ⟨[], []⟩⟩, ⟨"std", "_print", .func ⟨[.i32, .i32], []⟩⟩]
      memories := [⟨1, none, false⟩]
      funcs :=
        [⟨⟨[], []⟩,
          [.call (.imported "_ln") [], .call (.imported "_print") [.int 0, .int 0]]⟩,
         ⟨⟨[], []⟩, []⟩]
      exports := [⟨"memory", .memory 0⟩, ⟨"main", .own entry⟩]
      start }
  config := {}

theorem same_up_to_memory_newline :
    ∃ rA rB, (newlineThenMemory (some 0) 1).Ends console (.start [] ⟨0, 0, ""⟩)
        (.failed (.host .memoryUnavailable), rA) ∧
      (newlineThenMemory none 0).Ends console (.start [] ⟨0, 0, ""⟩) (.ok, rB) ∧
      rA.events = #[.wrote "\n"] ∧
      ∃ calls ending before call after,
        (newlineThenMemory none 0).EntryExecutes (.start [] ⟨0, 0, ""⟩) calls ending rB ∧
        calls = before ++ (call, rA) :: after ∧ call.function.usesMemory = true := by
  have htwins : (newlineThenMemory (some 0) 1).Twins (newlineThenMemory none 0) 0 :=
    { imports := rfl
      memories := rfl
      data := rfl
      funcs := rfl
      linked := by
        intro i hi
        simp only [newlineThenMemory, List.mem_cons, List.not_mem_nil, or_false] at hi
        rcases hi with rfl | rfl
        · exact ⟨.ln, rfl⟩
        · exact ⟨.print, rfl⟩
      fits := nofun
      start := rfl
      idle := ⟨0, .own 1, by cbv, Module.idle_of_empty rfl rfl⟩
      unstarted := rfl
      entry := ⟨0, by cbv⟩ }
  have ha : (newlineThenMemory (some 0) 1).Ends console (.start [] ⟨0, 0, ""⟩)
      (.failed (.host .memoryUnavailable), ⟨⟨0, 0, ""⟩, ⟨[], "\n"⟩, 0, 1, #[.wrote "\n"]⟩) :=
    ⟨by simp, 20, by cbv⟩
  have hb : (newlineThenMemory none 0).Ends console (.start [] ⟨0, 0, ""⟩)
      (.ok, ⟨⟨0, 0, ""⟩, ⟨[], "\n"⟩, 0, 2, #[.wrote "\n", .wrote ""]⟩) :=
    ⟨by simp, 20, by cbv⟩
  refine ⟨_, _, ha, hb, rfl, ?_⟩
  obtain ⟨⟨calls, ending, hentry, ⟨-, ho, -⟩ | ⟨before, call, after, hcalls, -, hcall, -⟩⟩, -⟩ :=
    htwins.same_up_to_memory ha hb
  · cases ho
  · exact ⟨calls, ending, before, call, after, hentry, hcalls, hcall⟩

end Program
end Programs
end Guest
end ConsoleHost
