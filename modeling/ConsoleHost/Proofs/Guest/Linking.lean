import ConsoleHost.Console.Recorder
import ConsoleHost.Proofs.Guest.Runs
import Mathlib

/-! Imports: the check of a module and its linking accept the same modules. -/
namespace ConsoleHost

/-- The entry that the table should have for a function. -/
def HostFunction.entry (f : HostFunction) : HostEntry :=
  ⟨f.name, f.closure.params, f.closure.results⟩

/-- The table lists the functions that are defined, each with the name and the types it is defined
with. -/
theorem HostEntry.all_eq_map : HostEntry.all = HostFunction.all.map HostFunction.entry := rfl

theorem HostEntry.mem_all_iff {e : HostEntry} : e ∈ all ↔ ∃ f : HostFunction, f.entry = e := by
  rw [all_eq_map, List.mem_map]
  constructor
  · rintro ⟨f, -, hf⟩
    exact ⟨f, hf⟩
  · rintro ⟨f, hf⟩
    exact ⟨f, f.mem_all, hf⟩

theorem HostFunction.find?_eq_some_iff {name : String} {f : HostFunction} :
    find? name = some f ↔ name = f.name := by
  constructor
  · intro h
    exact (name_of_find? h).symm
  · rintro rfl
    exact find?_name f

namespace Guest

namespace Import

variable {i : Import} {imports : List Import} {e : RunError} {error : EngineError}
  {f : HostFunction}

/-! ### The check -/

/-- A function under the module name of the host, with the name and the type of an entry of the
table. -/
structure Conforms (i : Import) : Prop where
  module : i.module = HostFunction.namespaceName
  func : ∃ entry ∈ HostEntry.all, entry.name = i.name ∧ i.kind = .func entry.type

theorem fault?_of_conforms (h : i.Conforms) : i.fault? = none := by
  obtain ⟨module, name, kind⟩ := i
  obtain ⟨hmodule, entry, hmem, hname, hkind⟩ := h
  have hfind : HostEntry.find? name = some entry :=
    HostEntry.find?_eq_some_iff.mpr ⟨hmem, hname⟩
  simp_all [fault?, HostEntry.accepts_iff]

theorem conforms_of_fault? (h : i.fault? = none) : i.Conforms := by
  obtain ⟨module, name, kind⟩ := i
  by_cases hm : module = HostFunction.namespaceName
  · cases kind with
    | func type =>
      cases hf : HostEntry.find? name with
      | none => simp [fault?, hm, hf] at h
      | some entry =>
        obtain ⟨hmem, hname⟩ := HostEntry.find?_eq_some_iff.mp hf
        obtain rfl : type = entry.type := by
          simpa [fault?, hm, hf, HostEntry.accepts_iff] using h
        exact ⟨hm, entry, hmem, hname, rfl⟩
    | memory | global | table => simp [fault?, hm] at h
  · simp [fault?, hm] at h

theorem fault?_eq_none_iff : i.fault? = none ↔ i.Conforms :=
  ⟨conforms_of_fault?, fault?_of_conforms⟩

/-- The check accepts the functions of the table with their types, and no other imports. -/
theorem checkAll_eq_ok_iff : checkAll imports = .ok () ↔ ∀ i ∈ imports, i.Conforms := by
  have hnone : (imports.findSome? fun i => i.fault?.map i.describe) = none ↔
      ∀ i ∈ imports, i.Conforms := by
    simp only [List.findSome?_eq_none_iff, Option.map_eq_none_iff, fault?_eq_none_iff]
  rw [← hnone]
  unfold checkAll
  split <;> simp_all

/-- What is reported is the fault of the first import that has one. -/
theorem checkAll_eq_error_iff : checkAll imports = .error e ↔
    ∃ before i after fault, imports = before ++ i :: after ∧ (∀ j ∈ before, j.Conforms) ∧
      i.fault? = some fault ∧ e = .validation (i.describe fault) := by
  constructor
  · intro h
    unfold checkAll at h
    split at h
    · cases h
    · rename_i text ht
      cases h
      obtain ⟨before, i, after, hi, hmap, hb⟩ := List.findSome?_eq_some_iff.mp ht
      obtain ⟨fault, hf, rfl⟩ := Option.map_eq_some_iff.mp hmap
      refine ⟨before, i, after, fault, hi, ?_, hf, rfl⟩
      intro j hj
      exact conforms_of_fault? (Option.map_eq_none_iff.mp (hb j hj))
  · rintro ⟨before, i, after, fault, rfl, hb, hf, rfl⟩
    have hfirst : ((before ++ i :: after).findSome? fun i => i.fault?.map i.describe) =
        some (i.describe fault) := by
      refine List.findSome?_eq_some_iff.mpr ⟨before, i, after, rfl, by simp [hf], ?_⟩
      intro j hj
      simp [fault?_of_conforms (hb j hj)]
    simp only [checkAll, hfirst]

/-! ### Linking -/

/-- A function that is defined, under its two names and with its type. -/
def Standard (i : Import) : Prop :=
  ∃ f : HostFunction, i = ⟨HostFunction.namespaceName, f.name, .func f.type⟩

/-- An import with the two names of a function that is defined. -/
def Names (i : Import) (f : HostFunction) : Prop :=
  i.module = HostFunction.namespaceName ∧ i.name = f.name

theorem resolve?_eq_some_iff : i.resolve? .standard = some f ↔ i.Names f := by
  simp [resolve?, Names, HostFunction.find?_eq_some_iff]

theorem mismatch?_eq_none_iff {kind : ImportKind} {type : FuncType} :
    mismatch? kind type = none ↔ kind = .func type := by
  cases kind <;> simp [mismatch?]

theorem undefined?_eq_none_iff : i.undefined? .standard = none ↔ ∃ f, i.Names f := by
  simp [undefined?, ← resolve?_eq_some_iff, Option.ne_none_iff_exists']

theorem undefined?_eq_some_iff :
    i.undefined? .standard = some error ↔ (∀ f, ¬ i.Names f) ∧ i.unknown = error := by
  simp [undefined?, ← resolve?_eq_some_iff, Option.eq_none_iff_forall_ne_some]

/-- An import with the names of a function is connected if it has its type. -/
theorem Names.incompatible?_eq (h : i.Names f) :
    i.incompatible? .standard = (mismatch? i.kind f.type).map i.incompatible := by
  rw [incompatible?, resolve?_eq_some_iff.mpr h, Option.bind_some]

theorem Names.standard_iff (h : i.Names f) : i.Standard ↔ i.kind = .func f.type := by
  obtain ⟨module, name, kind⟩ := i
  obtain ⟨rfl, rfl⟩ := h
  constructor
  · rintro ⟨g, hg⟩
    obtain ⟨-, hname, rfl⟩ := Import.mk.inj hg
    rw [HostFunction.name_injective hname]
  · rintro rfl
    exact ⟨f, rfl⟩

theorem Standard.exists_names (h : i.Standard) : ∃ f, i.Names f := by
  obtain ⟨f, rfl⟩ := h
  exact ⟨f, rfl, rfl⟩

/-- An import is connected if it has the names of a function, and then also its type. -/
theorem connects_iff : i.undefined? .standard = none ∧ i.incompatible? .standard = none ↔
    i.Standard := by
  rw [undefined?_eq_none_iff]
  constructor
  · rintro ⟨⟨f, hf⟩, hc⟩
    rw [hf.incompatible?_eq, Option.map_eq_none_iff, mismatch?_eq_none_iff] at hc
    exact hf.standard_iff.mpr hc
  · intro h
    obtain ⟨f, hf⟩ := h.exists_names
    refine ⟨⟨f, hf⟩, ?_⟩
    rw [hf.incompatible?_eq, Option.map_eq_none_iff, mismatch?_eq_none_iff]
    exact hf.standard_iff.mp h

/-- Linking accepts the functions that are defined with their types, and no other imports. -/
theorem linkAll_eq_ok_iff : linkAll .standard imports = .ok () ↔ ∀ i ∈ imports, i.Standard := by
  simp only [← connects_iff, forall_and, ← List.findSome?_eq_none_iff]
  unfold linkAll
  split
  · simp_all
  · split <;> simp_all

/-- The first import that has not the names of a function or, if they all have, the first that has
not the type. -/
inductive Unlinked (imports : List Import) : EngineError → Prop where
  | unknown {before after : List Import} {i : Import} (himports : imports = before ++ i :: after)
      (hbefore : ∀ j ∈ before, ∃ f, j.Names f) (hi : ∀ f, ¬ i.Names f) :
      Unlinked imports i.unknown
  | incompatible {before after : List Import} {i : Import} {f : HostFunction} {reason : String}
      (hnames : ∀ j ∈ imports, ∃ f, j.Names f) (himports : imports = before ++ i :: after)
      (hbefore : ∀ j ∈ before, j.Standard) (hi : ¬ i.Standard) (hf : i.Names f)
      (hreason : mismatch? i.kind f.type = some reason) : Unlinked imports (i.incompatible reason)

theorem Unlinked.exists_not_standard (h : Unlinked imports error) :
    ∃ i ∈ imports, ¬ i.Standard := by
  cases h with
  | @unknown _ _ i himports _ hi =>
    refine ⟨i, by simp [himports], ?_⟩
    intro hs
    obtain ⟨f, hf⟩ := hs.exists_names
    exact hi f hf
  | @incompatible _ _ i _ _ _ himports _ hi => exact ⟨i, by simp [himports], hi⟩

theorem unlinked_of_linkAll (h : linkAll .standard imports = .error error) :
    Unlinked imports error := by
  unfold linkAll at h
  split at h
  · rename_i hu
    cases h
    obtain ⟨before, i, after, himports, hi, hbefore⟩ := List.findSome?_eq_some_iff.mp hu
    obtain ⟨hnames, rfl⟩ := undefined?_eq_some_iff.mp hi
    exact .unknown himports (fun j hj => undefined?_eq_none_iff.mp (hbefore j hj)) hnames
  · rename_i hnone
    have hnames : ∀ j ∈ imports, ∃ f, j.Names f :=
      fun j hj => undefined?_eq_none_iff.mp (List.findSome?_eq_none_iff.mp hnone j hj)
    split at h
    · rename_i hc
      cases h
      obtain ⟨before, i, after, himports, hi, hbefore⟩ := List.findSome?_eq_some_iff.mp hc
      obtain ⟨f, hf⟩ := hnames i (by simp [himports])
      rw [hf.incompatible?_eq] at hi
      obtain ⟨reason, hreason, rfl⟩ := Option.map_eq_some_iff.mp hi
      refine .incompatible hnames himports ?_ ?_ hf hreason
      · intro j hj
        have hj' := undefined?_eq_none_iff.mpr (hnames j (by simp [himports, hj]))
        exact connects_iff.mp ⟨hj', hbefore j hj⟩
      · rw [hf.standard_iff, ← mismatch?_eq_none_iff, hreason]
        nofun
    · cases h

/-! ### The two of them -/

/-- An import is of the table exactly if it is of a function that is defined. -/
theorem conforms_iff : i.Conforms ↔ i.Standard := by
  obtain ⟨module, name, kind⟩ := i
  constructor
  · rintro ⟨rfl, entry, hmem, rfl, rfl⟩
    obtain ⟨f, rfl⟩ := HostEntry.mem_all_iff.mp hmem
    exact ⟨f, rfl⟩
  · rintro ⟨f, hf⟩
    cases hf
    exact ⟨rfl, f.entry, HostEntry.mem_all_iff.mpr ⟨f, rfl⟩, rfl, rfl⟩

/-- Linking accepts the same imports as the check, though it goes by the functions and not by the
table, and looks at all names before any type. -/
theorem linkAll_eq_ok_iff_checkAll :
    linkAll .standard imports = .ok () ↔ checkAll imports = .ok () := by
  simp only [linkAll_eq_ok_iff, checkAll_eq_ok_iff, conforms_iff]

end Import

namespace Config

/-- The same settings, with the check of imports switched on or off. -/
def checking (config : Config) (on : Bool) : Config := { config with checkImports := on }

end Config

namespace Program

open Recorder

variable {σ : Type} {decode : Decoder} {source : Source} {m : Module} {p : Program} {fuel : Nat}
  {e : EngineError}

theorem load_of_compile (hm : source.compile decode = .ok m) (config : Config) :
    load decode source config =
      if config.checkImports then (Import.checkAll m.imports).map fun _ => ⟨m, config⟩
      else .ok ⟨m, config⟩ := by
  simp only [load, hm, bind, Except.bind]
  split
  · cases Import.checkAll m.imports <;> rfl
  · rfl

theorem load_of_unchecked (hm : source.compile decode = .ok m) (config : Config) :
    load decode source (config.checking false) = .ok ⟨m, config.checking false⟩ :=
  load_of_compile hm _

theorem load_of_checked (hm : source.compile decode = .ok m) (config : Config) :
    load decode source (config.checking true) =
      (Import.checkAll m.imports).map fun _ => ⟨m, config.checking true⟩ :=
  load_of_compile hm _

theorem load_of_conforms (hm : source.compile decode = .ok m) (hi : ∀ i ∈ m.imports, i.Conforms)
    (config : Config) : load decode source config = .ok ⟨m, config⟩ := by
  rw [load_of_compile hm, Import.checkAll_eq_ok_iff.mpr hi]
  split <;> rfl

/-- A run does not depend on whether the imports were checked before it. -/
theorem runOn_checking (m : Module) (config : Config) (fuel : Nat) (c : Console HostError σ)
    (s : σ) : (⟨m, config.checking true⟩ : Program).runOn fuel c s =
      (⟨m, config.checking false⟩ : Program).runOn fuel c s := rfl

theorem runOn_ne_link (hl : Import.linkAll .standard p.module.imports = .ok ())
    (c : Console HostError σ) (s : σ) (reasons : List String) :
    (p.runOn fuel c s).1 ≠ .failed (.link reasons) := by
  unfold runOn
  split
  · rename_i outcome _ hr
    have hcan := (p.run_yields fuel).of_run hr
    rintro rfl
    cases hcan with
    | unlinked h =>
      rw [hl] at h
      cases h
    | unresolved h =>
      obtain ⟨_, _, hr⟩ | ⟨_, hr⟩ | ⟨_, hr⟩ := p.required_cases <;> rw [hr] at h <;> cases h
  · nofun

theorem runOn_of_linkAll_error (hl : Import.linkAll .standard p.module.imports = .error e)
    (fuel : Nat) (r : Recorder) : p.runOn fuel console r = (.failed (.link e.reasons), r) := by
  simp only [runOn, run, hl, Dialogue.run, ofInstantiation_of_linkAll hl]
  rfl

/-- A module passes the check of its imports exactly if it links. If it passes, its runs are the same
without the check, and none ends with a link error. If it does not, it is still accepted without the
check, and every run of it ends with a link error before anything is written or read. -/
theorem check_agrees_with_link (hm : source.compile decode = .ok m) (config : Config) :
    ∃ unchecked, load decode source (config.checking false) = .ok unchecked ∧
      ((∃ checked, load decode source (config.checking true) = .ok checked ∧
          ∀ (fuel : Nat) (lines : List String) (faults : Faults),
            checked.runOn fuel console (start lines faults) =
              unchecked.runOn fuel console (start lines faults) ∧
            ∀ reasons, (checked.runOn fuel console (start lines faults)).1 ≠
              .failed (.link reasons)) ∨
        (∃ text, load decode source (config.checking true) = .error (.validation text)) ∧
          ∃ reasons, ∀ (fuel : Nat) (lines : List String) (faults : Faults),
            unchecked.runOn fuel console (start lines faults) =
              (.failed (.link reasons), start lines faults)) := by
  refine ⟨_, load_of_unchecked hm config, ?_⟩
  rw [load_of_checked hm]
  cases hc : Import.checkAll m.imports with
  | ok _ =>
    have hl := Import.linkAll_eq_ok_iff_checkAll.mpr hc
    refine .inl ⟨_, rfl, ?_⟩
    intro fuel lines faults
    exact ⟨runOn_checking m config fuel console _, runOn_ne_link hl console _⟩
  | error e =>
    obtain ⟨_, _, _, fault, -, -, -, rfl⟩ := Import.checkAll_eq_error_iff.mp hc
    cases hl : Import.linkAll .standard m.imports with
    | ok _ =>
      rw [Import.linkAll_eq_ok_iff_checkAll.mp hl] at hc
      cases hc
    | error e => exact .inr ⟨⟨_, rfl⟩, _, fun fuel _ _ => runOn_of_linkAll_error hl fuel _⟩

/-- A guest that leaves out the last parameter of a function it imports. -/
def shortImport : Module :=
  { Module.empty with
    imports := [⟨"std", "_ln", .func ⟨[], []⟩⟩, ⟨"std", "print_int_pad", .func ⟨[.i32], []⟩⟩] }

theorem check_agrees_with_link_shortImport :
    (∃ text, load .emptyModule (.described shortImport) {} = .error (.validation text)) ∧
      ∃ unchecked reasons,
        load .emptyModule (.described shortImport) { checkImports := false } = .ok unchecked ∧
          ∀ (fuel : Nat) (lines : List String) (faults : Faults),
            unchecked.runOn fuel console (start lines faults) =
              (.failed (.link reasons), start lines faults) := by
  have hcompile : (Source.described shortImport).compile .emptyModule = .ok shortImport := by
    cbv
  obtain ⟨unchecked, hload, hcases⟩ := check_agrees_with_link hcompile {}
  rcases hcases with ⟨checked, hchecked, -⟩ | ⟨hfailed, reasons, hruns⟩
  · rw [load_of_checked hcompile] at hchecked
    cases hchecked
  · exact ⟨hfailed, unchecked, reasons, hload, hruns⟩

end Program
end ConsoleHost.Guest
