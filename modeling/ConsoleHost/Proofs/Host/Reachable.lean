import ConsoleHost.Host.Bridge
import ConsoleHost.Proofs.Host.Service

/-! Bridges that actions lead to: a registration defines every function, and what is published is
there. -/
namespace ConsoleHost.Bridge

variable {σ : Type} {b b' : Bridge} {r : Recorder} {actions : List Action} {a : Action}

/-- An action with the calls it makes held on any console. -/
def stepOn (c : Console HostError σ) (b : Bridge) (a : Action) (t : σ) :
    Except Failure Reply × Bridge × σ :=
  match (b.act a).run c t with
  | (.ok (reply, b), t) => (reply, b, t)
  | (.error e, t) => (.error (.host e), b, t)

/-- The bridge and the console after some actions, one after the other. -/
def afterOn (c : Console HostError σ) (b : Bridge) (t : σ) (actions : List Action) : Bridge × σ :=
  actions.foldl (fun s a => (s.1.stepOn c a s.2).2) (b, t)

/-- The bridge and its recording console after some actions. -/
def after (b : Bridge) (r : Recorder) (actions : List Action) : Bridge × Recorder :=
  actions.foldl (fun s a => (s.1.step a s.2).2) (b, r)

theorem stepOn_console (b : Bridge) (a : Action) (r : Recorder) :
    b.stepOn Recorder.console a r = b.step a r := by
  unfold stepOn step
  cases (b.act a).run Recorder.console r with
  | mk result r' => cases result <;> rfl

theorem afterOn_console (b : Bridge) (r : Recorder) (actions : List Action) :
    b.afterOn Recorder.console r actions = b.after r actions := by
  simp only [afterOn, after, stepOn_console]

/-- What an action makes of a bridge. Of the calls only one that reads a line changes anything: the
line goes into the published memory, where it fits. -/
inductive Moves (b : Bridge) : Action → Bridge → Prop where
  | register : Moves b .register { b with registry := b.registry.register.2 }
  | newMemory (pages : Nat) (max : Option Nat) :
      Moves b (.newMemory pages max) { b with store := (b.store.add (.ofPages pages max)).2 }
  | publish (mem : Nat) : Moves b (.publish mem) { b with store := (b.store.publish mem).2 }
  | published : Moves b .published b
  | grow (mem pages : Nat) :
      Moves b (.grow mem pages) { b with store := (b.store.grow mem pages).2 }
  | poke (mem offset : Nat) (bytes : List UInt8) :
      Moves b (.poke mem offset bytes)
        { b with store := b.store.modify mem fun m => m.write offset bytes }
  | peek (mem offset len : Nat) : Moves b (.peek mem offset len) b
  | call (name : String) (args : List Word) : Moves b (.call name args) b
  | line (name : String) (args : List Word) {k offset : Nat} {m : Memory} {bytes : List UInt8}
      (hm : b.store.memory = .ok (k, m)) (hfits : offset + bytes.length ≤ m.size) :
      Moves b (.call name args)
        { b with store := b.store.modify k fun m => m.write offset bytes }

theorem call_moves (b : Bridge) (name : String) (args : List Word) :
    (b.call name args).Yields fun acted => b.Moves (.call name args) acted.2 := by
  unfold call
  split
  · exact .call name args
  · refine Dialogue.Yields.bind (P := fun served => ∀ value t, served = .ok (value, t) →
      b.Moves (.call name args) { b with store := t }) ?_ ?_
    · refine HostCall.serve_yields _ ?_ ?_ ?_ ?_
      · intro _ value t h
        cases h
      · intro w size value t h
        cases h
      · intro value t h
        cases h
        exact .call name args
      · intro _ k m offset bytes hm hfits value t h
        cases h
        exact .line name args hm hfits
    · intro served h
      cases served with
      | ok result => exact h _ _ rfl
      | error e => exact .call name args

theorem act_moves (b : Bridge) (a : Action) :
    (b.act a).Yields fun acted => b.Moves a acted.2 := by
  cases a with
  | register =>
    have h := Moves.register (b := b)
    simp only [act]
    split <;> rename_i hr <;> rwa [hr] at h
  | newMemory pages max => exact .newMemory pages max
  | publish mem => exact .publish mem
  | published =>
    simp only [act]
    split <;> exact .published
  | grow mem pages =>
    have h := Moves.grow (b := b) mem pages
    simp only [act]
    split <;> rename_i hg <;> rwa [hg] at h
  | poke mem offset bytes => exact .poke mem offset bytes
  | peek mem offset len => exact .peek mem offset len
  | call name args => exact b.call_moves name args

/-- A console call that fails is one of a host function, and changes nothing. -/
theorem stepOn_moves (c : Console HostError σ) (b : Bridge) (a : Action) (t : σ) :
    b.Moves a (b.stepOn c a t).2.1 := by
  unfold stepOn
  split
  · rename_i hr
    exact (b.act_moves a).of_run hr
  · rename_i hr
    cases a with
    | call name args => exact .call name args
    | newMemory | publish | poke | peek => cases hr
    | register | published | grow =>
      simp only [act] at hr
      split at hr <;> cases hr

theorem step_moves (b : Bridge) (a : Action) (r : Recorder) : b.Moves a (b.step a r).2.1 :=
  stepOn_console b a r ▸ stepOn_moves Recorder.console b a r

/-- Every function is defined. -/
def Registered (b : Bridge) : Prop := b.registry = ⟨HostFunction.all⟩

/-- The functions are defined all or not at all, and the published memory is one of the memories. -/
structure Consistent (b : Bridge) : Prop where
  registry : b.registry = .empty ∨ b.Registered
  published : ∀ k, b.store.published = some k → k < b.store.memories.size

theorem consistent_empty : empty.Consistent := by
  refine ⟨.inl rfl, ?_⟩
  intro k h
  cases h

/-- From nothing a registration defines every function, and from there it changes nothing. -/
theorem Consistent.register (h : b.Consistent) :
    b.registry.register.2 = ⟨HostFunction.all⟩ := by
  rcases h.registry with hr | hr
  · rw [hr, Registry.register_empty]
  · rw [show b.registry = ⟨HostFunction.all⟩ from hr, Registry.register_all]

theorem Moves.consistent (hmove : b.Moves a b') (h : b.Consistent) : b'.Consistent := by
  have hpublished := h.published
  cases hmove with
  | register => exact ⟨.inr h.register, hpublished⟩
  | newMemory pages max =>
    refine ⟨h.registry, ?_⟩
    intro k hk
    have hlt := hpublished k hk
    simp only [Store.add, Array.size_push]
    omega
  | publish mem =>
    refine ⟨h.registry, ?_⟩
    intro k hk
    rw [Store.published_publish, Option.or_eq_some_iff] at hk
    simp only [Store.memories_publish]
    obtain hk | ⟨-, hk⟩ := hk
    · exact hpublished k hk
    · split at hk <;> cases hk
      assumption
  | grow | poke | line => exact ⟨h.registry, by simpa using hpublished⟩
  | published | peek | call => exact h

theorem Moves.registered (hmove : b.Moves a b') (h : b.Consistent)
    (hr : b.Registered ∨ a = .register) : b'.Registered := by
  cases hmove with
  | register => exact h.register
  | newMemory | publish | published | grow | poke | peek | call | line =>
    rcases hr with hr | hr
    · exact hr
    · cases hr

/-- Consistency holds in every bridge that is reached, and a registration is never undone. -/
theorem afterOn_follows (c : Console HostError σ) (h : b.Consistent) (t : σ)
    (actions : List Action) :
    (b.afterOn c t actions).1.Consistent ∧
      (b.Registered ∨ .register ∈ actions → (b.afterOn c t actions).1.Registered) := by
  induction actions generalizing b t with
  | nil =>
    refine ⟨h, ?_⟩
    rintro (hr | hr)
    · exact hr
    · cases hr
  | cons a rest ih =>
    have hmove := stepOn_moves c b a t
    obtain ⟨hc, hr⟩ := ih (hmove.consistent h) (b.stepOn c a t).2.2
    refine ⟨hc, fun hreg => hr ?_⟩
    rcases hreg with hb | hmem
    · exact .inl (hmove.registered h (.inl hb))
    · cases hmem with
      | head => exact .inl (hmove.registered h (.inr rfl))
      | tail _ hmem => exact .inr hmem

theorem after_follows (h : b.Consistent) (r : Recorder) (actions : List Action) :
    (b.after r actions).1.Consistent ∧
      (b.Registered ∨ .register ∈ actions → (b.after r actions).1.Registered) :=
  afterOn_console b r actions ▸ afterOn_follows Recorder.console h r actions

end ConsoleHost.Bridge
