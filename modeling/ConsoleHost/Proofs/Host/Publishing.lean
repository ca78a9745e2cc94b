import ConsoleHost.Proofs.Host.Refinement

/-! Publishing by hand: the first publication is for good, and a registration is for all
functions. -/
namespace ConsoleHost.Bridge

variable {b b' : Bridge} {r : Recorder} {actions : List Action} {a : Action} {k : Nat}

/-- The memory that an action names. -/
def Action.named? : Action → Option Nat
  | publish mem | grow mem _ | poke mem _ _ | peek mem _ _ => some mem
  | register | newMemory .. | published | call .. => none

/-- The memory that an action asks to publish. -/
def Action.publishes? : Action → Option Nat
  | publish mem => some mem
  | _ => none

/-- How many memories an action makes. -/
def Action.made : Action → Nat
  | newMemory .. => 1
  | _ => 0

/-- No action names a memory that is not yet made, where there are so many at the start. -/
def NamesExisting : Nat → List Action → Prop
  | _, [] => True
  | count, a :: rest => (∀ k ∈ a.named?, k < count) ∧ NamesExisting (count + a.made) rest

instance decidableNamesExisting : (count : Nat) → (actions : List Action) →
    Decidable (NamesExisting count actions)
  | _, [] => inferInstanceAs (Decidable True)
  | count, a :: rest =>
    have := decidableNamesExisting (count + a.made) rest
    inferInstanceAs (Decidable (_ ∧ _))

/-- The memory that the first publication names. -/
def firstPublished (actions : List Action) : Option Nat := actions.findSome? (·.publishes?)

theorem firstPublished_cons (a : Action) (rest : List Action) :
    firstPublished (a :: rest) = a.publishes?.or (firstPublished rest) := by
  cases h : a.publishes? <;> simp [firstPublished, h]

theorem Moves.size_eq (hmove : b.Moves a b') :
    b'.store.memories.size = b.store.memories.size + a.made := by
  cases hmove with
  | newMemory => simp [Store.add, Action.made]
  | register | publish | published | grow | poke | peek | call | line => simp [Action.made]

/-- A publication counts if it is the first. Nothing else changes what is published. -/
theorem Moves.published_eq (hmove : b.Moves a b')
    (hnamed : ∀ k ∈ a.named?, k < b.store.memories.size) :
    b'.store.published = b.store.published.or a.publishes? := by
  cases hmove with
  | publish mem =>
    have hlt := hnamed mem rfl
    simp only [Store.published_publish, if_pos hlt, Action.publishes?]
  | register | newMemory | published | grow | poke | peek | call | line =>
    simp [Store.add, Action.publishes?]

theorem published_after (hnames : NamesExisting b.store.memories.size actions) (r : Recorder) :
    (b.after r actions).1.store.published = b.store.published.or (firstPublished actions) := by
  induction actions generalizing b r with
  | nil => simp [after, firstPublished]
  | cons a rest ih =>
    obtain ⟨hnamed, hrest⟩ := hnames
    have hmove := b.step_moves a r
    rw [← hmove.size_eq] at hrest
    have hlater := ih hrest (b.step a r).2.2
    rw [hmove.published_eq hnamed, Option.or_assoc, ← firstPublished_cons] at hlater
    exact hlater

/-- Without a registration there is no function. -/
theorem registry_after (h : .register ∉ actions) (r : Recorder) :
    (b.after r actions).1.registry = b.registry := by
  induction actions generalizing b r with
  | nil => rfl
  | cons a rest ih =>
    rw [List.mem_cons, not_or] at h
    have hkept : (b.step a r).2.1.registry = b.registry := by
      generalize hb : (b.step a r).2.1 = b'
      have hmove := b.step_moves a r
      rw [hb] at hmove
      cases hmove with
      | register => exact absurd rfl h.1
      | newMemory | publish | published | grow | poke | peek | call | line => rfl
    exact (ih h.2 _).trans hkept

theorem step_publish (b : Bridge) (mem : Nat) (r : Recorder) :
    b.step (.publish mem) r =
      (.ok (.accepted (b.store.publish mem).1), { b with store := (b.store.publish mem).2 }, r) :=
  rfl

theorem step_published_of_none (h : b.store.published = none) :
    b.step .published r = (.error (.host .memoryUnavailable), b, r) := by
  simp only [step, act, Store.memory_of_unpublished h, Dialogue.run]

theorem step_published_of_some {m : Memory} (h : b.store.published = some k)
    (hm : b.store.memories[k]? = some m) :
    b.step .published r = (.ok (.number m.size), b, r) := by
  simp only [step, act, Store.memory_of_published h hm, Dialogue.run]

/-- A second registration fails at its first function, and leaves all of them defined. -/
theorem step_register_of_registered (h : b.Registered) :
    b.step .register r =
      (.error (.run (.link ["import of `std::readln` defined twice"])), b, r) := by
  obtain ⟨registry, store⟩ := b
  obtain rfl : registry = ⟨HostFunction.all⟩ := h
  rfl

/-- Where nothing is registered, every function is undefined. -/
theorem step_call_of_empty (h : b.registry = .empty) (name : String) (args : List Word) :
    b.step (.call name args) r = (.ok .undefined, b, r) := by
  simp [step, act, call, h, Registry.empty, Registry.find?]

/-- The first publication of a memory is accepted, and no later one, whatever it names. Until then
no memory can be asked for or used. From then on it is the memory that the first publication has
named: its size is what is answered, and its bytes are what the functions use, if they are
registered. They are registered all at once, and a second registration changes nothing. -/
theorem published_for_good {lines : List String} {faults : Faults}
    (hnames : NamesExisting 0 actions)
    (hb : empty.after (.start lines faults) actions = (b, r)) :
    (∀ k < b.store.memories.size,
      (b.step (.publish k) r).1 = .ok (.accepted (firstPublished actions).isNone)) ∧
    (firstPublished actions = none →
      b.step .published r = (.error (.host .memoryUnavailable), b, r) ∧
      (.register ∈ actions → ∀ c w, HostCall.window? c = some w →
        b.step (.call c.function.name c.args) r = (.error (.host .memoryUnavailable), b, r))) ∧
    (∀ k, firstPublished actions = some k →
      (∀ j, b.step (.publish j) r = (.ok (.accepted false), b, r)) ∧
      ∃ m, b.store.memories[k]? = some m ∧
        b.step .published r = (.ok (.number m.size), b, r) ∧
        (.register ∈ actions → ∀ c w, HostCall.window? c = some w →
          (¬ w.Fits m.size →
            b.step (.call c.function.name c.args) r =
              (.error (.host (.outOfBounds w.offset w.len m.size)), b, r)) ∧
          (w.Fits m.size →
            b.Answers r k m w
              ((c.operation (m.read w.offset.toNat w.len.toNat)).perform.run Recorder.console r)
              (b.step (.call c.function.name c.args) r)))) ∧
    (.register ∉ actions → b.registry = .empty ∧
      ∀ name args, b.step (.call name args) r = (.ok .undefined, b, r)) ∧
    (.register ∈ actions → b.registry = ⟨HostFunction.all⟩ ∧
      b.step .register r =
        (.error (.run (.link ["import of `std::readln` defined twice"])), b, r)) := by
  obtain ⟨hc, hreg⟩ := after_follows consistent_empty (.start lines faults) actions
  have hpublished := published_after (b := empty) hnames (.start lines faults)
  rw [hb] at hc hreg hpublished
  change b.store.published = none.or (firstPublished actions) at hpublished
  rw [Option.none_or] at hpublished
  refine ⟨?accepted, ?unpublished, ?published, ?unregistered, ?registered⟩
  case accepted =>
    intro k hk
    rw [← hpublished, step_publish, Store.publish]
    cases b.store.published with
    | none => rw [if_pos hk]; rfl
    | some j => rfl
  case unpublished =>
    intro hnone
    rw [hnone] at hpublished
    refine ⟨step_published_of_none hpublished, ?_⟩
    intro hmem c w hw
    exact step_of_unpublished (hreg (.inr hmem)) hw hpublished
  case published =>
    intro k hk
    rw [hk] at hpublished
    obtain ⟨m, hm⟩ : ∃ m, b.store.memories[k]? = some m :=
      ⟨_, Array.getElem?_eq_getElem (hc.published k hpublished)⟩
    refine ⟨?_, m, hm, step_published_of_some hpublished hm, ?_⟩
    · intro j
      rw [step_publish, Store.publish_of_published hpublished]
    · intro hmem c w hw
      exact ⟨step_of_not_fits (hreg (.inr hmem)) hw hpublished hm,
        fun hfits => answers_of_fits (hreg (.inr hmem)) hw hpublished hm hfits r⟩
  case unregistered =>
    intro hmem
    have hempty := registry_after (b := empty) hmem (.start lines faults)
    rw [hb] at hempty
    exact ⟨hempty, step_call_of_empty hempty⟩
  case registered =>
    intro hmem
    exact ⟨hreg (.inr hmem), step_register_of_registered (hreg (.inr hmem))⟩

/-- Of two memories the second is published, and the first then no more. -/
theorem published_for_good_second :
    NamesExisting 0 [.newMemory 1 none, .newMemory 2 none, .publish 1, .publish 0] ∧
      ∃ b r, empty.after (.start [] ⟨0, 0, ""⟩)
          [.newMemory 1 none, .newMemory 2 none, .publish 1, .publish 0] = (b, r) ∧
        b.step (.publish 0) r = (.ok (.accepted false), b, r) ∧
        b.step .published r = (.ok (.number 131072), b, r) := by
  have hnames :
      NamesExisting 0 [.newMemory 1 none, .newMemory 2 none, .publish 1, .publish 0] := by
    decide
  refine ⟨hnames, _, _, rfl, ?_⟩
  obtain ⟨hrefused, m, hm, hsize, -⟩ := (published_for_good hnames rfl).2.2.1 1 rfl
  cases hm
  exact ⟨hrefused 0, hsize⟩

end ConsoleHost.Bridge
