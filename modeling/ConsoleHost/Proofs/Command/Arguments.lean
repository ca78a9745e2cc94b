import ConsoleHost.Command.Arguments
import Mathlib.Data.List.TakeWhile

/-! Arguments that give one path, with flags for more messages anywhere around it. -/
namespace ConsoleHost.Command

variable {r : Reading} {path arg : String} {args : List String}

/-- An argument that asks for more messages, once or several times. -/
inductive AsksMore : String → Prop where
  | name : AsksMore "--verbose"
  | letters (n : Nat) : AsksMore (String.ofList ('-' :: 'v' :: List.replicate n 'v'))

/-- A path that cannot be taken for an option. -/
inductive IsPath : String → Prop where
  | dash : IsPath "-"
  | plain {path : String} (hne : path ≠ "") (h : path.toList.head? ≠ some '-') : IsPath path

/-- The arguments are one path and flags that ask for more messages, before and after it. -/
inductive Names (path : String) : List String → Prop where
  | intro (before rest : List String) (hpath : IsPath path) (hbefore : ∀ arg ∈ before, AsksMore arg)
      (hrest : ∀ arg ∈ rest, AsksMore arg) : Names path (before ++ path :: rest)

namespace Reading

theorem takeFlag_verbose (h : r.path ≠ some "") :
    r.takeFlag .verbose = .ok { r with verbosity := r.verbosity + 1 } := by
  rw [takeFlag, if_neg h]

theorem takeLetters_verbose (h : r.path ≠ some "") (n : Nat) :
    r.takeLetters (List.replicate n 'v') = .ok { r with verbosity := r.verbosity + n } := by
  induction n generalizing r with
  | zero => rfl
  | succ n ih =>
    have hletter : Flag.ofLetter? 'v' = some .verbose := Flag.ofLetter?_letter .verbose
    simp only [List.replicate_succ, takeLetters, hletter, takeFlag_verbose h]
    rw [ih (r := { r with verbosity := r.verbosity + 1 }) h, Nat.add_assoc, Nat.add_comm 1 n]

/-- Two dashes and a name with no equals sign are the flag of that name. -/
theorem take_of_name (name : String) (he : r.ended = false)
    (harg : arg.toList = '-' :: '-' :: name.toList) (hne : name.toList ≠ [])
    (hname : ∀ c ∈ name.toList, (c != '=') = true) : r.take arg = r.takeName name none := by
  obtain ⟨c, letters, hletters⟩ := List.exists_cons_of_ne_nil hne
  have hwhole := List.takeWhile_eq_self_iff.mpr hname
  have hvalue := List.dropWhile_eq_nil_iff.mpr hname
  rw [hletters] at harg hwhole hvalue
  rw [take, he, if_neg Bool.false_ne_true, harg]
  simp only [hwhole, hvalue]
  rw [← hletters, String.ofList_toList]

theorem take_of_asksMore (he : r.ended = false) (h : r.path ≠ some "") (harg : AsksMore arg) :
    ∃ verbosity, r.take arg = .ok { r with verbosity } := by
  cases harg with
  | name =>
    refine ⟨r.verbosity + 1, ?_⟩
    have hname : Flag.ofName? "verbose" = some .verbose := Flag.ofName?_name .verbose
    rw [take_of_name "verbose" he (by decide) (by decide) (by simp)]
    simp only [takeName, hname]
    exact takeFlag_verbose h
  | letters n =>
    refine ⟨r.verbosity + (n + 1), ?_⟩
    have htake : r.take (String.ofList ('-' :: 'v' :: List.replicate n 'v')) =
        r.takeLetters (List.replicate (n + 1) 'v') := by
      rw [take, he, if_neg Bool.false_ne_true, String.toList_ofList]
      rfl
    rw [htake]
    exact takeLetters_verbose h _

theorem take_of_isPath (he : r.ended = false) (h : r.path = none) (hpath : IsPath path) :
    r.take path = .ok { r with path := some path } := by
  have htake : r.take path = r.takePath path := by
    cases hpath with
    | dash =>
      simp only [take, he]
      rfl
    | plain hne hfirst =>
      rw [take, he, if_neg Bool.false_ne_true]
      split <;> rename_i hletters <;> first | rfl | simp [hletters] at hfirst
  rw [htake, takePath, h]

theorem foldlM_take_of_asksMore (he : r.ended = false) (h : r.path ≠ some "")
    (hargs : ∀ arg ∈ args, AsksMore arg) :
    ∃ verbosity, args.foldlM take r = .ok { r with verbosity } := by
  induction args generalizing r with
  | nil => exact ⟨r.verbosity, rfl⟩
  | cons arg rest ih =>
    obtain ⟨verbosity, htake⟩ := take_of_asksMore he h (hargs arg (by simp))
    rw [List.foldlM_cons, htake]
    exact ih (r := { r with verbosity }) he h fun arg harg => hargs arg (by simp [harg])

end Reading

theorem IsPath.ne_empty (h : IsPath path) : path ≠ "" := by
  cases h with
  | dash => decide
  | plain hne h => exact hne

/-- However many flags there are and wherever they stand, the path is to be run. -/
theorem Names.ofArguments_eq (h : Names path args) :
    ∃ verbosity, Request.ofArguments args = .run verbosity (some path) := by
  obtain ⟨before, rest, hpath, hbefore, hrest⟩ := h
  obtain ⟨n, hfirst⟩ := Reading.foldlM_take_of_asksMore (r := {}) rfl (by simp) hbefore
  have hne : some path ≠ some "" := by simpa using hpath.ne_empty
  obtain ⟨verbosity, hlast⟩ :=
    Reading.foldlM_take_of_asksMore (r := ⟨n, some path, false⟩) rfl hne hrest
  refine ⟨verbosity, ?_⟩
  have hpath' := Reading.take_of_isPath (r := ⟨n, none, false⟩) rfl rfl hpath
  have hall : (before ++ path :: rest).foldlM Reading.take {} =
      .ok ⟨verbosity, some path, false⟩ := by
    rw [List.foldlM_append, hfirst]
    refine Eq.trans ?_ hlast
    exact congrArg (· >>= rest.foldlM Reading.take) hpath'
  rw [Request.ofArguments, hall]
  exact if_neg hne

end ConsoleHost.Command
