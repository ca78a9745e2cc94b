import ConsoleHost.Guest.Machine

/-! Steps of a guest: they change no memory but the first, and they do not depend on which memory is
published. -/
namespace ConsoleHost

/-- The same memories, with another one of them published, or none. -/
def Store.publishing (s : Store) (k : Option Nat) : Store := { s with published := k }

/-- The second store is the first but for its first memory. -/
structure Store.SameButFirst (s t : Store) : Prop where
  published : t.published = s.published
  count : t.memories.size = s.memories.size
  others : ∀ k, k ≠ 0 → t.memories[k]? = s.memories[k]?

theorem Store.SameButFirst.refl (s : Store) : s.SameButFirst s := ⟨rfl, rfl, fun _ _ => rfl⟩

theorem Store.sameButFirst_modify (s : Store) (f : Memory → Memory) :
    s.SameButFirst (s.modify 0 f) := by
  refine ⟨Store.published_modify, Store.size_modify, ?_⟩
  intro k hk
  rw [Store.getElem?_modify, if_neg hk.symm]

theorem Store.sameButFirst_grow (s : Store) (delta : Nat) : s.SameButFirst (s.grow 0 delta).2 := by
  unfold grow
  split
  · exact .refl s
  · split
    · exact .refl s
    · exact s.sameButFirst_modify _

theorem Store.grow_publishing (s : Store) (p : Option Nat) (k delta : Nat) :
    (s.publishing p).grow k delta = ((s.grow k delta).1, (s.grow k delta).2.publishing p) := by
  unfold grow
  simp only [publishing]
  split
  · rfl
  · split <;> rfl

namespace Guest

namespace Machine

def publishing (s : Machine) (k : Option Nat) : Machine := { s with store := s.store.publishing k }

end Machine

namespace Step

def publishing : Step → Option Nat → Step
  | .next s, k => .next (s.publishing k)
  | .call c s, k => .call c (s.publishing k)
  | .returned store, k => .returned (store.publishing k)
  | .trapped t, _ => .trapped t

/-- The store after a step that does not trap. -/
def store? : Step → Option Store
  | .next s | .call _ s => some s.store
  | .returned store => some store
  | .trapped _ => none

end Step

namespace Machine

variable {s s' : Machine} {m : Module} {task : Task} {call : HostCall}

theorem enter_publishing (s : Machine) (f : Func) (k : Option Nat) :
    (s.publishing k).enter f = (s.enter f).publishing k := by
  by_cases h : s.room = 0 <;> simp [enter, publishing, Step.publishing, h]

theorem load_publishing (s : Machine) (access : Access) (k : Option Nat) :
    (s.publishing k).load access = (s.load access).publishing k := by
  unfold load
  rw [apply_ite (Step.publishing · k)]
  rfl

theorem save_publishing (s : Machine) (access : Access) (k : Option Nat) :
    (s.publishing k).save access = (s.save access).publishing k := by
  unfold save
  rw [apply_ite (Step.publishing · k)]
  rfl

theorem growMemory_publishing (s : Machine) (k : Option Nat) :
    (s.publishing k).growMemory = s.growMemory.publishing k := by
  simp only [growMemory, publishing, Store.grow_publishing, Step.publishing]

theorem perform_publishing (m : Module) (s : Machine) (task : Task) (k : Option Nat) :
    (s.publishing k).perform m task = (s.perform m task).publishing k := by
  cases task with
  | block body => cases body <;> rfl
  | eval e => cases e <;> rfl
  | invoke callee =>
    cases callee with
    | imported name =>
      simp only [perform, invoke]
      split <;> rfl
    | own index =>
      simp only [perform, invoke]
      split
      · exact enter_publishing s _ k
      · rfl
  | grow => exact growMemory_publishing s k
  | load access => exact load_publishing s access k
  | store access => exact save_publishing s access k
  | intOp op =>
    simp only [perform]
    split <;> (rename_i h; simp only [publishing] at h; rw [h]; rfl)
  | drop | assign | realOp | convert | choose | again | trap => rfl

/-- What a step of a guest does, it does whichever memory is published. -/
theorem step_publishing (m : Module) (s : Machine) (k : Option Nat) :
    (s.publishing k).step m = (s.step m).publishing k := by
  unfold step
  simp only [publishing]
  split
  · unfold leave
    dsimp only
    split <;> rfl
  · exact perform_publishing m { s with frame := { s.frame with tasks := _ } } _ k

/-- Of its module a step reads the functions only. -/
theorem step_congr {m m' : Module} (h : m'.funcs = m.funcs) (s : Machine) :
    s.step m' = s.step m := by
  have hinvoke (s : Machine) (callee : Callee) : s.invoke m' callee = s.invoke m callee := by
    cases callee <;> simp only [invoke, h]
  have hperform (s : Machine) (task : Task) : s.perform m' task = s.perform m task := by
    cases task with
    | invoke callee => exact hinvoke s callee
    | block body => cases body <;> rfl
    | eval | drop | assign | grow | load | store | intOp | realOp | convert | choose | again
    | trap => rfl
  unfold step
  split
  · rfl
  · exact hperform _ _

/-- The step traps, or it leaves all memories but the first as they were. -/
def Confined (s : Store) (step : Step) : Prop := ∀ t, step.store? = some t → s.SameButFirst t

theorem confined_of_eq {step : Step} (h : step.store? = some s.store) : Confined s.store step := by
  intro t ht
  obtain rfl := Option.some.inj (h.symm.trans ht)
  exact .refl _

theorem confined_trapped (store : Store) (trap : Trap) : Confined store (.trapped trap) := nofun

theorem enter_confined (s : Machine) (f : Func) : Confined s.store (s.enter f) := by
  unfold enter
  split
  · exact confined_trapped _ _
  · exact confined_of_eq rfl

theorem load_confined (s : Machine) (access : Access) : Confined s.store (s.load access) := by
  unfold load
  dsimp only
  split
  · exact confined_of_eq rfl
  · exact confined_trapped _ _

theorem save_confined (s : Machine) (access : Access) : Confined s.store (s.save access) := by
  unfold save
  dsimp only
  split
  · rintro _ ⟨⟩
    exact s.store.sameButFirst_modify _
  · exact confined_trapped _ _

theorem growMemory_confined (s : Machine) : Confined s.store s.growMemory := by
  rintro _ ⟨⟩
  exact s.store.sameButFirst_grow _

theorem perform_confined (m : Module) (s : Machine) (task : Task) :
    Confined s.store (s.perform m task) := by
  cases task with
  | block body => cases body <;> exact confined_of_eq rfl
  | eval e => cases e <;> exact confined_of_eq rfl
  | invoke callee =>
    cases callee with
    | imported name =>
      simp only [perform, invoke]
      split
      · exact confined_of_eq rfl
      · exact confined_trapped _ _
    | own index =>
      simp only [perform, invoke]
      split
      · exact enter_confined s _
      · exact confined_trapped _ _
  | grow => exact growMemory_confined s
  | load access => exact load_confined s access
  | store access => exact save_confined s access
  | intOp op =>
    simp only [perform]
    split
    · exact confined_of_eq rfl
    · exact confined_trapped _ _
  | trap => exact confined_trapped _ _
  | drop | assign | realOp | convert | choose | again => exact confined_of_eq rfl

/-- A step of a guest changes no memory but the first. -/
theorem step_confined (m : Module) (s : Machine) : Confined s.store (s.step m) := by
  unfold step
  split
  · unfold leave
    split <;> exact confined_of_eq rfl
  · exact perform_confined m { s with frame := { s.frame with tasks := _ } } _

theorem store_of_perform (h : s.perform m task = .call call s') : s'.store = s.store := by
  cases task with
  | invoke callee =>
    cases callee with
    | imported name =>
      simp only [perform, invoke] at h
      split at h <;> cases h
      rfl
    | own index =>
      simp only [perform, invoke, enter] at h
      split at h
      · split at h <;> cases h
      · cases h
  | block body => cases body <;> cases h
  | eval e => cases e <;> cases h
  | load access =>
    simp only [perform, load] at h
    split at h <;> cases h
  | store access =>
    simp only [perform, save] at h
    split at h <;> cases h
  | intOp op =>
    simp only [perform] at h
    split at h <;> cases h
  | drop | assign | grow | realOp | convert | choose | again | trap => cases h

/-- A guest calls the host with the memories as they are. -/
theorem store_of_step_call (h : s.step m = .call call s') : s'.store = s.store := by
  unfold step at h
  split at h
  · unfold leave at h
    split at h <;> cases h
  · have hstore := store_of_perform h
    exact hstore

end Machine
end Guest
end ConsoleHost
