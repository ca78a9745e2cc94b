import ConsoleHost.Console.Basic

/-! Dialogues as trees: the values they can end with, and what becomes of one that is given more
fuel. -/
namespace ConsoleHost.Dialogue

variable {ε σ α β : Type} {c : Console ε σ} {s : σ} {P : α → Prop} {Q : β → Prop} {u : α} {v : β}
  {d d' : Dialogue α}

/-- Every value that the dialogue can end with satisfies `P`, whatever it is answered. -/
def Yields (P : α → Prop) : Dialogue α → Prop
  | done a => P a
  | readLine next => ∀ line, (next line).Yields P
  | write _ next => (next ()).Yields P
  | note _ next => (next ()).Yields P

theorem yields_trivial (d : Dialogue α) : d.Yields fun _ => True := by
  induction d with
  | done a => trivial
  | readLine next ih => exact ih
  | write text next ih => exact ih ()
  | note entry next ih => exact ih ()

theorem Yields.bind {f : α → Dialogue β} (h : d.Yields P) (hf : ∀ a, P a → (f a).Yields Q) :
    (d.bind f).Yields Q := by
  induction d with
  | done a => exact hf a h
  | readLine next ih => exact fun line => ih line (h line)
  | write text next ih => exact ih () h
  | note entry next ih => exact ih () h

theorem Yields.of_run {a : α} {t : σ} (h : d.Yields P) (hr : d.run c s = (.ok a, t)) : P a := by
  induction d generalizing s with
  | done b =>
    cases hr
    exact h
  | readLine next ih =>
    simp only [run] at hr
    split at hr
    · exact ih _ (h _) hr
    · cases hr
  | write text next ih =>
    simp only [run] at hr
    split at hr
    · exact ih _ h hr
    · cases hr
  | note entry next ih => exact ih () h hr

/-- What every call of a console preserves, a dialogue held with it preserves. -/
theorem run_preserves {I : σ → Prop} (hread : ∀ s, I s → I (c.readLine s).2)
    (hwrite : ∀ text s, I s → I (c.write text s).2) (hnote : ∀ entry s, I s → I (c.note entry s))
    (d : Dialogue α) (h : I s) : I (d.run c s).2 := by
  induction d generalizing s with
  | done a => exact h
  | readLine next ih =>
    have hnext := hread s h
    simp only [run]
    split <;> rename_i hr <;> rw [hr] at hnext
    · exact ih _ hnext
    · exact hnext
  | write text next ih =>
    have hnext := hwrite text s h
    simp only [run]
    split <;> rename_i hr <;> rw [hr] at hnext
    · exact ih () hnext
    · exact hnext
  | note entry next ih => exact ih () (hnote entry s h)

/-- The dialogue reads no line. -/
def OnlyWrites : Dialogue α → Prop
  | done _ => True
  | readLine _ => False
  | write _ next => (next ()).OnlyWrites
  | note _ next => (next ()).OnlyWrites

theorem OnlyWrites.bind {f : α → Dialogue β} (h : d.OnlyWrites) (hf : ∀ a, (f a).OnlyWrites) :
    (d.bind f).OnlyWrites := by
  induction d with
  | done a => exact hf a
  | readLine next ih => exact h.elim
  | write text next ih => exact ih () h
  | note entry next ih => exact ih () h

/-- The second dialogue is the first, or goes on where the first gives up with the value `u`. -/
inductive Extends (u : α) : Dialogue α → Dialogue α → Prop where
  | done (a : α) : Extends u (done a) (done a)
  | gaveUp (d : Dialogue α) : Extends u (done u) d
  | readLine {next next' : Option String → Dialogue α}
      (h : ∀ line, Extends u (next line) (next' line)) : Extends u (readLine next) (readLine next')
  | write {text : String} {next next' : Unit → Dialogue α} (h : Extends u (next ()) (next' ())) :
      Extends u (write text next) (write text next')
  | note {entry : Log.Entry} {next next' : Unit → Dialogue α} (h : Extends u (next ()) (next' ())) :
      Extends u (note entry next) (note entry next')

theorem Extends.refl (u : α) (d : Dialogue α) : Extends u d d := by
  induction d with
  | done a => exact .done a
  | readLine next ih => exact .readLine ih
  | write text next ih => exact .write (ih ())
  | note entry next ih => exact .note (ih ())

theorem Extends.bind {f f' : α → Dialogue β} (h : Extends u d d') (hu : f u = .done v)
    (hf : ∀ a, Extends v (f a) (f' a)) : Extends v (d.bind f) (d'.bind f') := by
  induction h with
  | done a => exact hf a
  | gaveUp d =>
    rw [done_bind, hu]
    exact .gaveUp _
  | readLine _ ih => exact .readLine ih
  | write _ ih => exact .write ih
  | note _ ih => exact .note ih

theorem extends_bind {f f' : α → Dialogue β} (d : Dialogue α) (hf : ∀ a, Extends v (f a) (f' a)) :
    Extends v (d.bind f) (d.bind f') := by
  induction d with
  | done a => exact hf a
  | readLine next ih => exact .readLine ih
  | write text next ih => exact .write (ih ())
  | note entry next ih => exact .note (ih ())

/-- On a console, more fuel changes no run that has not given up. -/
theorem Extends.run_eq (h : Extends u d d') (hu : (d.run c s).1 ≠ .ok u) :
    d'.run c s = d.run c s := by
  induction h generalizing s with
  | done a => rfl
  | gaveUp d => exact absurd rfl hu
  | readLine _ ih =>
    simp only [run] at hu ⊢
    split
    · rename_i hr
      rw [hr] at hu
      exact ih _ hu
    · rfl
  | write _ ih =>
    simp only [run] at hu ⊢
    split
    · rename_i hr
      rw [hr] at hu
      exact ih hu
    · rfl
  | note _ ih => exact ih hu

end ConsoleHost.Dialogue
