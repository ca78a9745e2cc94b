import ConsoleHost.Console.Recorder
import ConsoleHost.Proofs.Guest.Defects
import ConsoleHost.Proofs.Guest.Executions
import ConsoleHost.Proofs.Guest.Instances

/-! Stages of loading and running a module: the first that fails says how it ends. -/
namespace ConsoleHost.Guest

open Recorder

/-- What is done with a module, in this order. -/
inductive Stage where
  | compile
  | checkImports
  | link
  | placeData
  | start
  | findMemory
  | findEntry
  | checkEntry
  | runEntry
  deriving DecidableEq, Repr

namespace Stage

/-- The place of a stage in the order. -/
def rank : Stage → Nat
  | compile => 0
  | checkImports => 1
  | link => 2
  | placeData => 3
  | start => 4
  | findMemory => 5
  | findEntry => 6
  | checkEntry => 7
  | runEntry => 8

/-- Before the entry point only the data and the start function of a guest can fail as it runs. -/
def kind : Stage → FailureKind
  | placeData | start | runEntry => .execution
  | compile | checkImports | link | findMemory | findEntry | checkEntry => .load

theorem rank_injective {a b : Stage} (h : a.rank = b.rank) : a = b := by
  cases a <;> cases b <;> simp_all [rank]

end Stage

open Machine (Executes Ending)

/-- The start function, if there is one, has returned, and has left this store and this console. -/
inductive Started (m : Module) (r : Recorder) : Store → Recorder → Prop where
  | skipped {store : Store} (hs : m.start = none) (hd : m.initialStore = .ok store) :
      Started m r store r
  | returned {index : Nat} {store store' : Store} {calls : List (HostCall × Recorder)}
      {r' : Recorder} (hs : m.start = some index) (hd : m.initialStore = .ok store)
      (hx : Executes m console (.start (.own index) store) r calls (.returned store') r') :
      Started m r store' r'

/-- A stage fails with an error and leaves a console behind. Each stage is described by itself: it
can fail in a module that does not get so far, as long as there is what it works on. -/
inductive Fails (decode : Decoder) (source : Source) (config : Config) (r : Recorder) :
    Stage → RunError → Recorder → Prop where
  | compile {reasons : List String} (h : source.compile decode = .error (.compile reasons)) :
      Fails decode source config r .compile (.compile reasons) r
  | checkImports {m : Module} {before after : List Import} {i : Import} {fault : ImportFault}
      (hm : source.compile decode = .ok m) (hc : config.checkImports = true)
      (hi : m.imports = before ++ i :: after) (hb : ∀ j ∈ before, j.Conforms)
      (hf : i.FirstDefect fault) :
      Fails decode source config r .checkImports (.validation (i.describe fault)) r
  | link {m : Module} {error : EngineError} (hm : source.compile decode = .ok m)
      (hl : Import.Unlinked m.imports error) :
      Fails decode source config r .link (.link error.reasons) r
  | placeData {m : Module} {d : DataSegment} (hm : source.compile decode = .ok m) (hd : d ∈ m.data)
      (hs : m.firstSize < d.offset.toNat + d.bytes.length) :
      Fails decode source config r .placeData (.trap Trap.outOfBounds.message) r
  | start {m : Module} {index : Nat} {store : Store} {calls : List (HostCall × Recorder)}
      {ending : Ending} {e : RunError} {r' : Recorder} (hm : source.compile decode = .ok m)
      (hs : m.start = some index) (hd : m.initialStore = .ok store)
      (hx : Executes m console (.start (.own index) store) r calls ending r')
      (he : ending.error? = some e) : Fails decode source config r .start e r'
  | findMemory {m : Module} {store : Store} {r' : Recorder} (hm : source.compile decode = .ok m)
      (hs : Started m r store r') (h : ∀ k, ¬ m.ExportsMemory config.memoryExport k) :
      Fails decode source config r .findMemory
        (.missingExport ("memory '" ++ config.memoryExport ++ "'")) r'
  | findEntry {m : Module} {store : Store} {r' : Recorder} (hm : source.compile decode = .ok m)
      (hs : Started m r store r')
      (h : ∀ callee type, ¬ m.ExportsFunc config.entryPoint callee type) :
      Fails decode source config r .findEntry (.missingExport (config.entryPoint ++ " function")) r'
  | checkEntry {m : Module} {store : Store} {r' : Recorder} {callee : Callee} {type : FuncType}
      (hm : source.compile decode = .ok m) (hs : Started m r store r')
      (h : m.ExportsFunc config.entryPoint callee type) (hp : type.params ≠ []) :
      Fails decode source config r .checkEntry
        (.validation ("export '" ++ config.entryPoint ++ "' must take no parameters, takes " ++
          toString type.params.length)) r'
  | runEntry {m : Module} {store : Store} {r' r'' : Recorder} {k : Nat} {callee : Callee}
      {type : FuncType} {calls : List (HostCall × Recorder)} {ending : Ending} {e : RunError}
      (hm : source.compile decode = .ok m) (hs : Started m r store r')
      (hk : m.ExportsMemory config.memoryExport k)
      (h : m.ExportsFunc config.entryPoint callee type) (hp : type.params = [])
      (hx : Executes m console (.start callee (store.publish k).2) r' calls ending r'')
      (he : ending.error? = some e) : Fails decode source config r .runEntry e r''

/-- The entry point has returned, on the published memory and after the start function. -/
def Completes (decode : Decoder) (source : Source) (config : Config) (r r'' : Recorder) : Prop :=
  ∃ m store r' k callee type calls store', source.compile decode = .ok m ∧ Started m r store r' ∧
    m.ExportsMemory config.memoryExport k ∧ m.ExportsFunc config.entryPoint callee type ∧
    type.params = [] ∧
    Executes m console (.start callee (store.publish k).2) r' calls (.returned store') r''

/-- The stage does not fail. -/
def Passes (decode : Decoder) (source : Source) (config : Config) (r : Recorder) (stage : Stage) :
    Prop :=
  ∀ e r', ¬ Fails decode source config r stage e r'

/-- No stage before this one fails. -/
def PassesBefore (decode : Decoder) (source : Source) (config : Config) (r : Recorder)
    (stage : Stage) : Prop :=
  ∀ earlier : Stage, earlier.rank < stage.rank → Passes decode source config r earlier

/-- The stage fails, and none before it does. -/
def FirstFails (decode : Decoder) (source : Source) (config : Config) (r : Recorder)
    (stage : Stage) (e : RunError) (r' : Recorder) : Prop :=
  Fails decode source config r stage e r' ∧ PassesBefore decode source config r stage

/-- A module is loaded and run once, and that comes to an end. -/
def Source.Ends (decode : Decoder) (source : Source) (config : Config) (r : Recorder)
    (result : Outcome × Recorder) : Prop :=
  match Program.load decode source config with
  | .error e => result = (.failed e, r)
  | .ok p => p.Ends console r result

variable {decode : Decoder} {source : Source} {config : Config} {m : Module} {r r' r'' : Recorder}
  {store store' : Store} {k : Nat} {callee : Callee} {type : FuncType}
  {calls : List (HostCall × Recorder)} {ending : Ending} {stage : Stage} {e : RunError}
  {outcome : Outcome} {lines : List String} {faults : Faults}

theorem Started.placed (h : Started m r store r') : ∃ first, m.initialStore = .ok first := by
  cases h with
  | skipped _ hd | returned _ hd _ => exact ⟨_, hd⟩

theorem Started.executes {index : Nat} {first : Store} (h : Started m r store r')
    (hs : m.start = some index) (hd : m.initialStore = .ok first) :
    ∃ calls, Executes m console (.start (.own index) first) r calls (.returned store) r' := by
  cases h with
  | skipped hnone =>
    rw [hs] at hnone
    cases hnone
  | returned hs' hd' hx =>
    obtain rfl := Option.some.inj (hs.symm.trans hs')
    obtain rfl := Except.ok.inj (hd.symm.trans hd')
    exact ⟨_, hx⟩

theorem Started.unique {s : Store} (h : Started m r store r') (h' : Started m r s r'') :
    store = s ∧ r' = r'' := by
  cases h with
  | skipped hs hd =>
    cases h' with
    | skipped hs' hd' => simp_all
    | returned hs' => simp_all
  | returned hs hd hx =>
    obtain ⟨_, hx'⟩ := h'.executes hs hd
    obtain ⟨-, he, hr⟩ := hx.unique hx'
    exact ⟨Ending.returned.inj he, hr⟩

section Passing

theorem compile_passes (hm : source.compile decode = .ok m) :
    Passes decode source config r .compile := by
  intro e r' h
  cases h with
  | compile h =>
    rw [hm] at h
    cases h

theorem checkImports_passes (hm : source.compile decode = .ok m)
    (hc : config.checkImports = true → Import.checkAll m.imports = .ok ()) :
    Passes decode source config r .checkImports := by
  intro e r' h
  cases h with
  | @checkImports _ before after i _ hm' hcheck hi _ hf =>
    obtain rfl := Except.ok.inj (hm.symm.trans hm')
    have hmem : i ∈ m.imports := by simp [hi]
    have hnone := Import.fault?_of_conforms (Import.checkAll_eq_ok_iff.mp (hc hcheck) i hmem)
    rw [hf.fault?_eq] at hnone
    cases hnone

theorem link_passes (hm : source.compile decode = .ok m)
    (hl : Import.linkAll .standard m.imports = .ok ()) : Passes decode source config r .link := by
  intro e r' h
  cases h with
  | link hm' hl' =>
    obtain rfl := Except.ok.inj (hm.symm.trans hm')
    obtain ⟨i, hi, hs⟩ := hl'.exists_not_standard
    exact hs (Import.linkAll_eq_ok_iff.mp hl i hi)

theorem placeData_passes (hm : source.compile decode = .ok m) (hd : m.initialStore = .ok store) :
    Passes decode source config r .placeData := by
  intro e r' h
  cases h with
  | placeData hm' hmem hs =>
    obtain rfl := Except.ok.inj (hm.symm.trans hm')
    rw [Module.initialStore_of_not_fits hmem hs] at hd
    cases hd

theorem start_passes (hm : source.compile decode = .ok m) (hs : Started m r store r') :
    Passes decode source config r .start := by
  intro e t h
  cases h with
  | start hm' hindex hd hx he =>
    obtain rfl := Except.ok.inj (hm.symm.trans hm')
    obtain ⟨_, hx'⟩ := hs.executes hindex hd
    obtain ⟨-, rfl, -⟩ := hx.unique hx'
    cases he

theorem findMemory_passes (hm : source.compile decode = .ok m)
    (hk : m.ExportsMemory config.memoryExport k) : Passes decode source config r .findMemory := by
  intro e r' h
  cases h with
  | findMemory hm' _ h =>
    obtain rfl := Except.ok.inj (hm.symm.trans hm')
    exact h k hk

theorem findEntry_passes (hm : source.compile decode = .ok m)
    (hf : m.ExportsFunc config.entryPoint callee type) :
    Passes decode source config r .findEntry := by
  intro e r' h
  cases h with
  | findEntry hm' _ h =>
    obtain rfl := Except.ok.inj (hm.symm.trans hm')
    exact h callee type hf

theorem checkEntry_passes (hm : source.compile decode = .ok m)
    (hf : m.ExportsFunc config.entryPoint callee type) (hp : type.params = []) :
    Passes decode source config r .checkEntry := by
  intro e r' h
  cases h with
  | checkEntry hm' _ hf' hp' =>
    obtain rfl := Except.ok.inj (hm.symm.trans hm')
    obtain ⟨-, rfl⟩ := hf.unique (Source.nodup_exports_of_compile hm) hf'
    exact hp' hp

theorem runEntry_passes (h : Completes decode source config r r'') :
    Passes decode source config r .runEntry := by
  obtain ⟨m, store, r₁, k, callee, type, _, _, hm, hs, hk, hf, -, hx⟩ := h
  have hn := Source.nodup_exports_of_compile hm
  intro e t h
  cases h with
  | runEntry hm' hs' hk' hf' _ hx' he =>
    obtain rfl := Except.ok.inj (hm.symm.trans hm')
    obtain ⟨rfl, rfl⟩ := hs.unique hs'
    obtain rfl := hk.unique hn hk'
    obtain ⟨rfl, -⟩ := hf.unique hn hf'
    obtain ⟨-, rfl, -⟩ := hx.unique hx'
    cases he

theorem PassesBefore.next {a b : Stage} (h : PassesBefore decode source config r a)
    (ha : Passes decode source config r a) (hab : b.rank = a.rank + 1) :
    PassesBefore decode source config r b := by
  intro earlier hlt
  by_cases he : earlier.rank = a.rank
  · rw [Stage.rank_injective he]
    exact ha
  · exact h earlier (by omega)

theorem passes_before_compile : PassesBefore decode source config r .compile :=
  fun _ hlt => absurd hlt (Nat.not_lt_zero _)

theorem passes_before_check (hm : source.compile decode = .ok m) :
    PassesBefore decode source config r .checkImports :=
  passes_before_compile.next (compile_passes hm) rfl

end Passing

/-- Either all stages pass and the run completes, or it ends as the first that fails says. -/
def Verdict (decode : Decoder) (source : Source) (config : Config) (r : Recorder)
    (outcome : Outcome) (r'' : Recorder) : Prop :=
  (outcome = .ok ∧ Completes decode source config r r'' ∧
      ∀ stage, Passes decode source config r stage) ∨
    ∃ stage e, outcome = .failed e ∧ FirstFails decode source config r stage e r''

theorem required_of_no_memory {p : Program}
    (h : p.module.exportedMemory? p.config.memoryExport = none) :
    p.required = .error (.missingExport ("memory '" ++ p.config.memoryExport ++ "'")) := by
  simp only [Program.required, h]

theorem required_of_no_entry {p : Program}
    (hk : p.module.exportedMemory? p.config.memoryExport = some k)
    (h : p.module.exportedFunc? p.config.entryPoint = none) :
    p.required = .error (.missingExport (p.config.entryPoint ++ " function")) := by
  simp only [Program.required, hk, h]

theorem required_of_params {p : Program}
    (hk : p.module.exportedMemory? p.config.memoryExport = some k)
    (hf : p.module.exportedFunc? p.config.entryPoint = some (callee, type))
    (hp : type.params ≠ []) :
    p.required = .error (.validation ("export '" ++ p.config.entryPoint ++
      "' must take no parameters, takes " ++ toString type.params.length)) := by
  simp only [Program.required, hk, hf, if_neg hp]

theorem required_of_exports {p : Program}
    (hk : p.module.exportedMemory? p.config.memoryExport = some k)
    (hf : p.module.exportedFunc? p.config.entryPoint = some (callee, type))
    (hp : type.params = []) : p.required = .ok (k, callee) := by
  simp only [Program.required, hk, hf, if_pos hp]

theorem conclude_callEntry_of_error {p : Program} (h : p.required = .error e) (fuel : Nat) :
    Program.conclude ((p.callEntry fuel store).run console r) = (.failed e, r) := by
  simp only [Program.callEntry, h]
  rfl

theorem conclude_callEntry {p : Program} (h : p.required = .ok (k, callee)) (fuel : Nat) :
    Program.conclude ((p.callEntry fuel store).run console r) =
      Program.conclude ((p.call .ofCall fuel callee (store.publish k).2 fun _ =>
        .note .finished fun _ => .done .ok).run console r) := by
  simp only [Program.callEntry, h]
  rfl

/-- An entry point that does not leave the run unfinished has been executed, and the run ends as it
does. -/
theorem executes_of_callEntry {p : Program} {fuel : Nat} (h : p.required = .ok (k, callee))
    (hend : Program.conclude ((p.callEntry fuel store).run console r) = (outcome, r'))
    (hu : outcome ≠ .unfinished) : ∃ calls ending,
      Executes p.module console (.start callee (store.publish k).2) r calls ending r' ∧
        outcome = ending.outcome := by
  rw [conclude_callEntry h] at hend
  obtain ⟨calls, ending, u, hx, ⟨store', rfl, hc⟩ | ⟨e, he, ho, rfl⟩⟩ :=
    Program.executes_of_call hend hu
  · cases hc
    exact ⟨calls, _, hx, rfl⟩
  · exact ⟨calls, ending, hx, ho.trans (Ending.outcome_of_error? he).symm⟩

/-- After the start function, the exports are looked up and the entry point runs. -/
theorem verdict_of_started {fuel : Nat} (hm : source.compile decode = .ok m)
    (hs : Started m r store r') (hbefore : PassesBefore decode source config r .start)
    (hend : Program.conclude
      (((⟨m, config⟩ : Program).callEntry fuel store).run console r') = (outcome, r''))
    (hu : outcome ≠ .unfinished) : Verdict decode source config r outcome r'' := by
  have hn := Source.nodup_exports_of_compile hm
  have hstarted : PassesBefore decode source config r .findMemory :=
    hbefore.next (start_passes hm hs) rfl
  cases hk : m.exportedMemory? config.memoryExport with
  | none =>
    rw [conclude_callEntry_of_error (required_of_no_memory hk)] at hend
    cases hend
    refine .inr ⟨.findMemory, _, rfl, .findMemory hm hs ?_, hstarted⟩
    intro k hk'
    rw [← Module.exportedMemory?_eq_some_iff hn, hk] at hk'
    cases hk'
  | some k =>
    have hmemory := (Module.exportedMemory?_eq_some_iff hn).mp hk
    have hfound : PassesBefore decode source config r .findEntry :=
      hstarted.next (findMemory_passes hm hmemory) rfl
    cases hf : m.exportedFunc? config.entryPoint with
    | none =>
      rw [conclude_callEntry_of_error (required_of_no_entry hk hf)] at hend
      cases hend
      refine .inr ⟨.findEntry, _, rfl, .findEntry hm hs ?_, hfound⟩
      intro callee type hf'
      rw [← Module.exportedFunc?_eq_some_iff hn, hf] at hf'
      cases hf'
    | some entry =>
      obtain ⟨callee, type⟩ := entry
      have hentry := (Module.exportedFunc?_eq_some_iff hn).mp hf
      have hnamed : PassesBefore decode source config r .checkEntry :=
        hfound.next (findEntry_passes hm hentry) rfl
      by_cases hp : type.params = []
      · have hready : PassesBefore decode source config r .runEntry :=
          hnamed.next (checkEntry_passes hm hentry hp) rfl
        obtain ⟨calls, ending, hx, rfl⟩ :=
          executes_of_callEntry (required_of_exports hk hf hp) hend hu
        cases ending with
        | returned store' =>
          have hdone : Completes decode source config r r'' :=
            ⟨m, store, r', k, callee, type, calls, store', hm, hs, hmemory, hentry, hp, hx⟩
          refine .inl ⟨rfl, hdone, ?_⟩
          intro stage
          by_cases hstage : stage = .runEntry
          · rw [hstage]
            exact runEntry_passes hdone
          · refine hready stage ?_
            cases stage <;> simp_all [Stage.rank]
        | trapped | failed =>
          exact .inr ⟨.runEntry, _, rfl, .runEntry hm hs hmemory hentry hp hx rfl, hready⟩
        | unfinished => exact absurd rfl hu
      · rw [conclude_callEntry_of_error (required_of_params hk hf hp)] at hend
        cases hend
        exact .inr ⟨.checkEntry, _, rfl, .checkEntry hm hs hentry hp, hnamed⟩

theorem runOn_of_no_data {p : Program} {t : Trap}
    (hl : Import.linkAll .standard p.module.imports = .ok ())
    (hd : p.module.initialStore = .error t) (fuel : Nat) :
    p.runOn fuel console r = (.failed (.trap t.message), r) := by
  simp only [Program.runOn, Program.run, hl, hd]
  rfl

theorem runOn_of_data {p : Program} (hl : Import.linkAll .standard p.module.imports = .ok ())
    (hd : p.module.initialStore = .ok store) (fuel : Nat) :
    p.runOn fuel console r =
      Program.conclude ((p.callStart fuel store (p.callEntry fuel)).run console r) := by
  simp only [Program.runOn_eq_conclude, Program.run, hl, hd]
  rfl

/-- With the data in place, the start function runs first, if there is one. Either the run goes on
with the entry point after it, or it ends with its failure. -/
theorem started_or_failed {p : Program} {fuel : Nat} (hd : p.module.initialStore = .ok store)
    (hend : Program.conclude ((p.callStart fuel store (p.callEntry fuel)).run console r) =
      (outcome, r''))
    (hu : outcome ≠ .unfinished) :
    (∃ store' r', Started p.module r store' r' ∧
        Program.conclude ((p.callEntry fuel store').run console r') = (outcome, r'')) ∨
      ∃ index calls ending e, p.module.start = some index ∧
        Executes p.module console (.start (.own index) store) r calls ending r'' ∧
        ending.error? = some e ∧ outcome = .failed e := by
  unfold Program.callStart at hend
  split at hend
  · rename_i index hs
    obtain ⟨calls, ending, u, hx, ⟨store', rfl, hnext⟩ | ⟨e, he, rfl, rfl⟩⟩ :=
      Program.executes_of_call hend hu
    · exact .inl ⟨store', u, .returned hs hd hx, hnext⟩
    · exact .inr ⟨index, calls, ending, e, hs, hx, he, rfl⟩
  · rename_i hs
    exact .inl ⟨store, r, .skipped hs hd, hend⟩

theorem verdict_of_data {fuel : Nat} (hm : source.compile decode = .ok m)
    (hd : m.initialStore = .ok store)
    (hbefore : PassesBefore decode source config r .start)
    (hend : Program.conclude
      (((⟨m, config⟩ : Program).callStart fuel store
        ((⟨m, config⟩ : Program).callEntry fuel)).run console r) = (outcome, r''))
    (hu : outcome ≠ .unfinished) : Verdict decode source config r outcome r'' := by
  obtain ⟨store', r', hs, hnext⟩ | ⟨index, calls, ending, e, hs, hx, he, rfl⟩ :=
    started_or_failed hd hend hu
  · exact verdict_of_started hm hs hbefore hnext hu
  · exact .inr ⟨.start, e, rfl, .start hm hs hd hx he, hbefore⟩

/-- A program that has been loaded is linked first, and then its data is placed. -/
theorem verdict_of_loaded (hm : source.compile decode = .ok m)
    (hc : config.checkImports = true → Import.checkAll m.imports = .ok ())
    (h : (⟨m, config⟩ : Program).Ends console r (outcome, r'')) :
    Verdict decode source config r outcome r'' := by
  obtain ⟨hu, fuel, hrun⟩ := h
  have hchecked : PassesBefore decode source config r .link :=
    (passes_before_check hm).next (checkImports_passes hm hc) rfl
  cases hl : Import.linkAll .standard m.imports with
  | ok _ =>
    have hlinked : PassesBefore decode source config r .placeData :=
      hchecked.next (link_passes hm hl) rfl
    by_cases hfits : m.DataFits
    · obtain ⟨store, hd, -, -⟩ := Module.initialStore_of_fits hfits
      have hplaced : PassesBefore decode source config r .start :=
        hlinked.next (placeData_passes hm hd) rfl
      rw [runOn_of_data hl hd] at hrun
      exact verdict_of_data hm hd hplaced hrun hu
    · obtain ⟨d, hd, hsize⟩ := Module.exists_of_not_dataFits hfits
      rw [runOn_of_no_data hl (Module.initialStore_of_not_fits hd hsize)] at hrun
      cases hrun
      exact .inr ⟨.placeData, _, rfl, .placeData hm hd hsize, hlinked⟩
  | error error =>
    rw [Program.runOn_of_linkAll_error hl] at hrun
    cases hrun
    exact .inr ⟨.link, _, rfl, .link hm (Import.unlinked_of_linkAll hl), hchecked⟩

theorem ends_of_load {p : Program} {result : Outcome × Recorder}
    (h : Program.load decode source config = .ok p) :
    source.Ends decode config r result ↔ p.Ends console r result := by
  simp only [Source.Ends, h]

theorem verdict_of_ends (h : source.Ends decode config r (outcome, r'')) :
    Verdict decode source config r outcome r'' := by
  unfold Source.Ends at h
  cases hm : source.compile decode with
  | error e =>
    obtain ⟨reasons, rfl⟩ := Source.reasons_of_compile hm
    simp only [Program.load, hm, bind, Except.bind] at h
    cases h
    exact .inr ⟨.compile, _, rfl, .compile hm, passes_before_compile⟩
  | ok m =>
    rw [Program.load_of_compile hm] at h
    by_cases hcheck : config.checkImports = true
    · cases hall : Import.checkAll m.imports with
      | ok _ =>
        simp only [hcheck, if_true, hall, Except.map] at h
        exact verdict_of_loaded hm (fun _ => hall) h
      | error e =>
        simp only [hcheck, if_true, hall, Except.map] at h
        cases h
        obtain ⟨_, _, _, fault, hi, hb, hf, rfl⟩ := Import.checkAll_eq_error_iff.mp hall
        have hfirst := Import.firstDefect_of_fault? hf
        exact .inr ⟨.checkImports, _, rfl, .checkImports hm hcheck hi hb hfirst,
          passes_before_check hm⟩
    · rw [if_neg hcheck] at h
      exact verdict_of_loaded hm (fun hc => absurd hc hcheck) h

theorem Ending.kind_of_error? (h : ending.error? = some e) : e.kind = .execution := by
  cases ending <;> cases h <;> rfl

/-- The kind of an error is that of the stage it comes from. -/
theorem Fails.kind_eq (h : Fails decode source config r stage e r') : e.kind = stage.kind := by
  cases h with
  | start _ _ _ _ he | runEntry _ _ _ _ _ _ he => exact Ending.kind_of_error? he
  | compile | checkImports | link | placeData | findMemory | findEntry | checkEntry => rfl

theorem Fails.untouched (h : Fails decode source config r stage e r')
    (hs : stage.rank < Stage.start.rank) : r' = r := by
  cases h with
  | compile | checkImports | link | placeData => rfl
  | start | findMemory | findEntry | checkEntry | runEntry => simp [Stage.rank] at hs

theorem Fails.started (h : Fails decode source config r stage e r')
    (hs : Stage.start.rank < stage.rank) (hr : stage.rank < Stage.runEntry.rank) :
    ∃ m store, source.compile decode = .ok m ∧ Started m r store r' := by
  cases h with
  | findMemory hm hs | findEntry hm hs | checkEntry hm hs => exact ⟨_, _, hm, hs⟩
  | compile | checkImports | link | placeData | start => simp [Stage.rank] at hs
  | runEntry => simp at hr

/-- A module that is loaded and run ends as the first stage that fails says, and completes if none
does. Nothing is written or read before the start function. A stage that fails between the start
function and the entry point leaves what the start function has left. So an error of loading means
that nothing of the entry point has run, and an error of execution comes from the data, the start
function or the entry point. -/
theorem Source.Ends.first_failure
    (h : source.Ends decode config (.start lines faults) (outcome, r)) :
    (outcome = .ok ↔ ∀ stage, Passes decode source config (.start lines faults) stage) ∧
      ((outcome = .ok ∧ Completes decode source config (.start lines faults) r) ∨
        ∃ stage e, outcome = .failed e ∧
          FirstFails decode source config (.start lines faults) stage e r ∧
          (stage.rank < Stage.start.rank → r = .start lines faults) ∧
          (Stage.start.rank < stage.rank → stage.rank < Stage.runEntry.rank →
            ∃ m store, source.compile decode = .ok m ∧ Started m (.start lines faults) store r) ∧
          (e.kind = .load → r = .start lines faults ∨
            ∃ m store, source.compile decode = .ok m ∧ Started m (.start lines faults) store r) ∧
          (e.kind = .execution →
            stage = .placeData ∨ stage = .start ∨ stage = .runEntry)) := by
  obtain ⟨rfl, hdone, hall⟩ | ⟨stage, e, rfl, hfirst⟩ := verdict_of_ends h
  · exact ⟨⟨fun _ => hall, fun _ => rfl⟩, .inl ⟨rfl, hdone⟩⟩
  · obtain ⟨hfails, hbefore⟩ := hfirst
    have hkind := hfails.kind_eq
    refine ⟨⟨nofun, fun hall => absurd hfails (hall stage e r)⟩, .inr ⟨stage, e, rfl,
      ⟨hfails, hbefore⟩, hfails.untouched, hfails.started, ?_, ?_⟩⟩
    · intro hload
      rw [hkind] at hload
      by_cases hs : stage.rank < Stage.start.rank
      · exact .inl (hfails.untouched hs)
      · refine .inr (hfails.started ?_ ?_) <;> cases stage <;> simp_all [Stage.rank, Stage.kind]
    · intro hexecution
      rw [hkind] at hexecution
      cases stage <;> simp_all [Stage.kind]

/-- A guest whose start function writes a line, that exports no memory, and whose entry point takes
a parameter. -/
def noisyStart : Module :=
  { Module.empty with
    imports := [⟨"std", "_ln", .func ⟨[], []⟩⟩]
    funcs := [⟨⟨[], []⟩, [.call (.imported "_ln") []]⟩, ⟨⟨[.i32], []⟩, []⟩]
    exports := [⟨"main", .own 1⟩]
    start := some 0 }

theorem first_failure_noisyStart :
    ∃ r, (Source.described noisyStart).Ends .emptyModule {} (.start [] ⟨0, 0, ""⟩)
        (.failed (.missingExport "memory 'memory'"), r) ∧
      r.events = #[.wrote "\n"] ∧
      FirstFails .emptyModule (.described noisyStart) {} (.start [] ⟨0, 0, ""⟩) .findMemory
        (.missingExport "memory 'memory'") r := by
  have hcompile : (Source.described noisyStart).compile .emptyModule = .ok noisyStart := by
    cbv
  have hchecked : Import.checkAll noisyStart.imports = .ok () := by
    refine Import.checkAll_eq_ok_iff.mpr ?_
    intro i hi
    rw [List.mem_singleton.mp hi]
    exact Import.conforms_iff.mpr ⟨.ln, rfl⟩
  have hload : Program.load .emptyModule (.described noisyStart) {} = .ok ⟨noisyStart, {}⟩ := by
    rw [Program.load_of_compile hcompile, hchecked]
    rfl
  have hends : (Source.described noisyStart).Ends .emptyModule {} (.start [] ⟨0, 0, ""⟩)
      (.failed (.missingExport "memory 'memory'"),
        ⟨⟨0, 0, ""⟩, ⟨[], "\n"⟩, 0, 1, #[.wrote "\n"]⟩) :=
    (ends_of_load hload).mpr ⟨by simp, 20, by cbv⟩
  refine ⟨_, hends, rfl, ?_⟩
  obtain ⟨-, ⟨ho, -⟩ | ⟨stage, e, ho, hfirst, -⟩⟩ := hends.first_failure
  · cases ho
  · cases ho
    obtain rfl : stage = .findMemory := by
      have hfails := hfirst.1
      have hkind : FailureKind.load = stage.kind := hfails.kind_eq
      generalize Recorder.mk ⟨0, 0, ""⟩ ⟨[], "\n"⟩ 0 1 #[.wrote "\n"] = r at hfails
      generalize he : RunError.missingExport "memory 'memory'" = e at hfails
      cases hfails <;> simp_all [Stage.kind]
    exact hfirst

end ConsoleHost.Guest
