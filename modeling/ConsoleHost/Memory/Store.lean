import ConsoleHost.Memory.Window

/-! The memories of a guest, and the one of them that is published to the host. -/
namespace ConsoleHost

structure Store where
  memories : Array Memory
  /-- The number of the published memory. -/
  published : Option Nat

namespace Store

def empty : Store := ⟨#[], none⟩

/-- Adds a memory and gives its number. -/
def add (s : Store) (m : Memory) : Nat × Store :=
  (s.memories.size, { s with memories := s.memories.push m })

def modify (s : Store) (k : Nat) (f : Memory → Memory) : Store :=
  { s with memories := s.memories.modify k f }

/-- The first publication is accepted, and no later one. -/
def publish (s : Store) (k : Nat) : Bool × Store :=
  match s.published with
  | none => if k < s.memories.size then (true, { s with published := some k }) else (false, s)
  | some _ => (false, s)

/-- The published memory and its number. -/
def memory (s : Store) : Except HostError (Nat × Memory) :=
  match s.published with
  | none => .error .memoryUnavailable
  | some k =>
    match s.memories[k]? with
    | none => .error .memoryUnavailable
    | some m => .ok (k, m)

/-- Grows a memory and gives the number of pages it had, or nothing if it cannot grow so far. -/
def grow (s : Store) (k delta : Nat) : Option Nat × Store :=
  match s.memories[k]? with
  | none => (none, s)
  | some m =>
    match m.grow? delta with
    | none => (none, s)
    | some _ => (some m.pages, s.modify k fun m => (m.grow? delta).getD m)

variable {s : Store} {k j : Nat} {f : Memory → Memory}

@[simp] theorem size_modify : (s.modify k f).memories.size = s.memories.size := by
  simp [modify]

@[simp] theorem published_modify : (s.modify k f).published = s.published := rfl

theorem getElem?_modify (s : Store) (k j : Nat) (f : Memory → Memory) :
    (s.modify k f).memories[j]? =
      if k = j then (s.memories[j]?).map f else s.memories[j]? := by
  simp [modify, Array.getElem?_modify]

@[simp] theorem memories_publish : (s.publish k).2.memories = s.memories := by
  unfold publish
  split <;> (try split) <;> rfl

/-- What is published stays so, and else an existing memory is published. -/
theorem published_publish (s : Store) (k : Nat) :
    (s.publish k).2.published = s.published.or (if k < s.memories.size then some k else none) := by
  unfold publish
  split
  · split <;> simp_all
  · simp_all

@[simp] theorem published_grow {delta : Nat} : (s.grow k delta).2.published = s.published := by
  unfold grow
  split
  · rfl
  · split <;> rfl

@[simp] theorem size_grow {delta : Nat} :
    (s.grow k delta).2.memories.size = s.memories.size := by
  unfold grow
  split
  · rfl
  · split
    · rfl
    · exact size_modify

/-- A published memory stays the published one. -/
theorem publish_of_published (h : s.published = some j) : (s.publish k) = (false, s) := by
  simp [publish, h]

end Store
end ConsoleHost
