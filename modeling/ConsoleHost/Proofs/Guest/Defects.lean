import ConsoleHost.Proofs.Guest.Linking
import Mathlib

/-! Defects of imports: the check reports the first import that has any, and the first that it
has. -/
namespace ConsoleHost

namespace Guest

namespace ImportFault

/-- The order in which the defects of an import are looked for. -/
def rank : ImportFault → Nat
  | foreignModule => 0
  | notFunction => 1
  | unknownName => 2
  | wrongType _ => 3

/-- How the text of a defect begins. -/
def opening : ImportFault → String
  | foreignModule => "import from unknown module '"
  | notFunction => "non-function import not allowed: "
  | unknownName => "unknown host function: "
  | wrongType _ => "import '"

end ImportFault

namespace Import

variable {i : Import} {imports others : List Import} {fault first : ImportFault} {type : FuncType}

/-- What is wrong with an import, whatever else is. -/
def HasDefect (i : Import) : ImportFault → Prop
  | .foreignModule => i.module ≠ HostFunction.namespaceName
  | .notFunction => ∀ type, i.kind ≠ .func type
  | .unknownName => ∀ entry ∈ HostEntry.all, entry.name ≠ i.name
  | .wrongType entry => ∃ type, i.kind = .func type ∧ entry ∈ HostEntry.all ∧
      entry.name = i.name ∧ type ≠ entry.type

/-- The first of the defects that an import has. -/
def FirstDefect (i : Import) (fault : ImportFault) : Prop :=
  i.HasDefect fault ∧ ∀ other : ImportFault, other.rank < fault.rank → ¬ i.HasDefect other

instance : DecidablePred Conforms := fun _ =>
  decidable_of_iff _ fault?_eq_none_iff

/-- An import without any defect conforms. -/
theorem exists_hasDefect (h : ¬ i.Conforms) : ∃ fault, i.HasDefect fault := by
  by_contra hnone
  have hno (fault : ImportFault) : ¬ i.HasDefect fault := fun hf => hnone ⟨fault, hf⟩
  have hmodule : i.module = HostFunction.namespaceName := not_not.mp (hno .foreignModule)
  obtain ⟨type, hkind⟩ : ∃ type, i.kind = .func type := by
    simpa [HasDefect] using hno .notFunction
  obtain ⟨entry, hmem, hname⟩ : ∃ entry ∈ HostEntry.all, entry.name = i.name := by
    simpa [HasDefect] using hno .unknownName
  refine h ⟨hmodule, entry, hmem, hname, ?_⟩
  by_contra htype
  exact hno (.wrongType entry) ⟨type, hkind, hmem, hname, fun heq => htype (heq ▸ hkind)⟩

theorem exists_firstDefect (h : ¬ i.Conforms) : ∃ fault, i.FirstDefect fault := by
  obtain ⟨fault, hfault, hleast⟩ :=
    (measure ImportFault.rank).wf.has_min {fault | i.HasDefect fault} (exists_hasDefect h)
  exact ⟨fault, hfault, fun other hlt hother => hleast other hother hlt⟩

/-- The check of an import finds its first defect. -/
theorem FirstDefect.fault?_eq (h : i.FirstDefect fault) : i.fault? = some fault := by
  obtain ⟨hfault, hbefore⟩ := h
  have hmodule : 0 < fault.rank → i.module = HostFunction.namespaceName :=
    fun hlt => not_not.mp (hbefore .foreignModule hlt)
  have hkind : 1 < fault.rank → ∃ type, i.kind = .func type := by
    intro hlt
    simpa [HasDefect] using hbefore .notFunction hlt
  cases fault with
  | foreignModule => exact if_pos hfault
  | notFunction =>
    rw [fault?, if_neg (not_not.mpr (hmodule (by decide)))]
    split
    · exact absurd ‹_› (hfault _)
    · rfl
  | unknownName =>
    obtain ⟨type, hkind⟩ := hkind (by decide)
    have hfind : HostEntry.find? i.name = none := by
      simpa [HostEntry.find?, HasDefect] using hfault
    simp [fault?, hmodule (by decide), hkind, hfind]
  | wrongType entry =>
    obtain ⟨type, hfunc, hmem, hname, htype⟩ := hfault
    have hfind : HostEntry.find? i.name = some entry :=
      HostEntry.find?_eq_some_iff.mpr ⟨hmem, hname⟩
    simp [fault?, hmodule (by simp [ImportFault.rank]), hfunc, hfind, HostEntry.accepts_iff, htype]

theorem firstDefect_of_fault? (h : i.fault? = some fault) : i.FirstDefect fault := by
  have hnot : ¬ i.Conforms := by
    rw [← fault?_eq_none_iff, h]
    nofun
  obtain ⟨first, hfirst⟩ := exists_firstDefect hnot
  cases h.symm.trans hfirst.fault?_eq
  exact hfirst

/-- The text of a defect names the import. -/
theorem describe_names (i : Import) (fault : ImportFault) : ∃ between after,
    i.describe fault = fault.opening ++ i.module ++ between ++ i.name ++ after := by
  cases fault with
  | foreignModule =>
    refine ⟨"' (only '" ++ HostFunction.namespaceName ++ "' allowed): ", "", ?_⟩
    rw [String.append_empty, ← String.append_assoc, ← String.append_assoc]
    rfl
  | notFunction | unknownName =>
    refine ⟨"::", "", ?_⟩
    rw [String.append_empty]
    rfl
  | wrongType expected =>
    refine ⟨"::", "' has wrong signature: expected " ++ typeList expected.params ++ " -> " ++
      typeList expected.results, ?_⟩
    simp only [← String.append_assoc]
    rfl

/-- Imports that conform do not matter. -/
theorem checkAll_filter (imports : List Import) :
    checkAll (imports.filter fun i => ¬ i.Conforms) = checkAll imports := by
  have hfirst :
      (imports.filter fun i => ¬ i.Conforms).findSome? (fun i => i.fault?.map i.describe) =
        imports.findSome? fun i => i.fault?.map i.describe := by
    induction imports with
    | nil => rfl
    | cons i rest ih =>
      by_cases hi : i.Conforms
      · have hnone : i.fault? = none := fault?_of_conforms hi
        rw [List.filter_cons_of_neg (by simpa using hi), ih, List.findSome?_cons, hnone]
        rfl
      · rw [List.filter_cons_of_pos (by simpa using hi), List.findSome?_cons, List.findSome?_cons,
          ih]
  simp only [checkAll, hfirst]

/-- The check accepts imports that conform, and no others. Of others it reports the first that does
not conform, by its names and by the first of its defects, whatever comes after it. Imports that
conform make no difference, wherever they stand and however often. -/
theorem checkAll_reports_first (imports : List Import) :
    (checkAll imports = .ok () ↔ ∀ i ∈ imports, i.Conforms) ∧
    (checkAll imports ≠ .ok () → ∃ before i after fault,
      imports = before ++ i :: after ∧ (∀ j ∈ before, j.Conforms) ∧ ¬ i.Conforms ∧
      i.FirstDefect fault ∧
      (∃ between rest,
        i.describe fault = fault.opening ++ i.module ++ between ++ i.name ++ rest) ∧
      ∀ others, checkAll (before ++ i :: others) = .error (.validation (i.describe fault))) ∧
    ∀ others : List Import,
      others.filter (fun i => ¬ i.Conforms) = imports.filter (fun i => ¬ i.Conforms) →
        checkAll others = checkAll imports := by
  refine ⟨?accepts, ?reports, ?spares⟩
  case accepts => exact checkAll_eq_ok_iff
  case reports =>
    intro hne
    cases hc : checkAll imports with
    | ok => exact absurd hc hne
    | error e =>
      obtain ⟨before, i, after, fault, himports, hbefore, hfault, rfl⟩ :=
        checkAll_eq_error_iff.mp hc
      refine ⟨before, i, after, fault, himports, hbefore, ?_, firstDefect_of_fault? hfault,
        i.describe_names fault, ?_⟩
      · rw [← fault?_eq_none_iff, hfault]
        nofun
      · exact fun others =>
          checkAll_eq_error_iff.mpr ⟨before, i, others, fault, rfl, hbefore, hfault, rfl⟩
  case spares =>
    intro others hsame
    rw [← checkAll_filter others, hsame, checkAll_filter]

/-- A function of the host, a memory under a name that the host does not have, and a global from
elsewhere. -/
def oddMemory : List Import :=
  [⟨"std", "_ln", .func ⟨[], []⟩⟩, ⟨"std", "print_bool", .memory⟩, ⟨"env", "_ln", .global⟩]

/-- What is reported is that the second import is not a function. -/
theorem checkAll_reports_first_oddMemory :
    checkAll oddMemory ≠ .ok () ∧
      checkAll oddMemory =
        .error (.validation "non-function import not allowed: std::print_bool") := by
  obtain ⟨haccepts, hreports, -⟩ := checkAll_reports_first oddMemory
  have hne : checkAll oddMemory ≠ .ok () := fun hok => absurd (haccepts.mp hok) (by decide)
  refine ⟨hne, ?_⟩
  obtain ⟨before, i, after, fault, himports, hbefore, hnot, hfirst, -, hreported⟩ := hreports hne
  match before, himports with
  | [], himports =>
    cases himports
    exact absurd (by decide) hnot
  | [_], himports =>
    cases himports
    have hfault := hfirst.fault?_eq
    cases hfault
    exact hreported _
  | _ :: _ :: _, himports =>
    obtain ⟨rfl, htail⟩ := List.cons.inj himports
    obtain ⟨rfl, -⟩ := List.cons.inj htail
    exact absurd (hbefore _ (.tail _ (.head _))) (by decide)

end Import
end Guest
end ConsoleHost
