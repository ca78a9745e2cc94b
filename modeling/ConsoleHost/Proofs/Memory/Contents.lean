import ConsoleHost.Memory.Basic

/-! Contents: what a memory holds after writes one after the other, while it grows or not. -/
namespace ConsoleHost

/-- Bytes that were stored, from a place on. -/
structure Patch where
  offset : Nat
  bytes : List UInt8
  deriving DecidableEq, Repr

namespace Patch

/-- The byte that a patch has stored at a place, if it reaches there. -/
def byte? (p : Patch) (i : Nat) : Option UInt8 :=
  if p.offset ≤ i then p.bytes[i - p.offset]? else none

/-- The byte that was stored last at a place, of patches in the order in which they were made. -/
def last? (patches : List Patch) (i : Nat) : Option UInt8 :=
  patches.reverse.findSome? (·.byte? i)

variable {patches : List Patch} {p : Patch} {i : Nat} {b : UInt8}

@[simp] theorem last?_nil (i : Nat) : last? [] i = none := rfl

theorem last?_concat (patches : List Patch) (p : Patch) (i : Nat) :
    last? (patches ++ [p]) i = (p.byte? i).or (last? patches i) := by
  rw [last?, last?, List.reverse_concat, List.findSome?_cons]
  cases p.byte? i <;> rfl

theorem last?_eq_none_iff : last? patches i = none ↔ ∀ p ∈ patches, p.byte? i = none := by
  simp [last?, List.findSome?_eq_none_iff]

/-- No patch after the one that stored the byte reaches its place. -/
theorem last?_eq_some_iff : last? patches i = some b ↔
    ∃ before p after, patches = before ++ p :: after ∧ p.byte? i = some b ∧
      ∀ q ∈ after, q.byte? i = none := by
  rw [last?, List.findSome?_eq_some_iff]
  constructor
  · rintro ⟨after, p, before, hrev, hb, hnone⟩
    refine ⟨before.reverse, p, after.reverse, ?_, hb, by simpa using hnone⟩
    simpa using congrArg List.reverse hrev
  · rintro ⟨before, p, after, rfl, hb, hnone⟩
    exact ⟨after.reverse, p, before.reverse, by simp, hb, by simpa using hnone⟩

end Patch

namespace Memory

variable {m g : Memory} {patches : List Patch} {offset len delta : Nat} {bytes : List UInt8}

/-- The memory holds what was stored last at each place, and zeros where nothing was. -/
def Holds (m : Memory) (patches : List Patch) : Prop :=
  ∀ i, m.byte i = (Patch.last? patches i).getD 0

theorem holds_ofPages (pages : Nat) (max : Option Nat) : (ofPages pages max).Holds [] := by
  intro i
  simp [byte, ofPages]

theorem Holds.write (h : m.Holds patches) (hfits : offset + bytes.length ≤ m.size) :
    (m.write offset bytes).Holds (patches ++ [⟨offset, bytes⟩]) := by
  intro i
  rw [byte_write hfits, Patch.last?_concat, Patch.byte?, h i]
  split
  · cases bytes[i - offset]? <;> rfl
  · rfl

/-- Growing stores nothing. -/
theorem Holds.grow (h : m.Holds patches) (hg : m.grow? delta = some g) : g.Holds patches := by
  intro i
  rw [byte_of_grow? hg, h i]

theorem setByte_of_size_le {i : Nat} (h : m.size ≤ i) (b : UInt8) : m.setByte i b = m := by
  rw [setByte, if_neg (by omega)]

/-- Of what is written only the part inside the memory is stored. -/
theorem write_take (m : Memory) (offset : Nat) (bytes : List UInt8) :
    m.write offset (bytes.take (m.size - offset)) = m.write offset bytes := by
  induction bytes generalizing m offset with
  | nil => simp
  | cons b rest ih =>
    have hrest := ih (m.setByte offset b) (offset + 1)
    rw [size_setByte] at hrest
    by_cases hi : offset < m.size
    · rw [show m.size - offset = (m.size - (offset + 1)) + 1 by omega, List.take_succ_cons]
      exact hrest
    · rw [show m.size - offset = 0 by omega, List.take_zero]
      rw [show m.size - (offset + 1) = 0 by omega, List.take_zero] at hrest
      have hskip : m.setByte offset b = m := setByte_of_size_le (by omega) b
      rw [hskip] at hrest
      change m = (m.setByte offset b).write (offset + 1) rest
      rw [hskip]
      exact hrest

theorem Holds.poke (h : m.Holds patches) (offset : Nat) (bytes : List UInt8) :
    (m.write offset bytes).Holds (patches ++ [⟨offset, bytes.take (m.size - offset)⟩]) := by
  by_cases ho : offset ≤ m.size
  · rw [← write_take]
    refine h.write ?_
    have hl := List.length_take_le (m.size - offset) bytes
    omega
  · have hnone : bytes.take (m.size - offset) = [] := by
      rw [show m.size - offset = 0 by omega, List.take_zero]
    rw [← write_take, hnone]
    intro i
    have hempty : (Patch.mk offset []).byte? i = none := by simp [Patch.byte?]
    rw [Patch.last?_concat, hempty, Option.none_or]
    exact h i

/-- What is read of a memory is what was stored last. -/
theorem Holds.read (h : m.Holds patches) (offset len : Nat) :
    m.read offset len = (List.range len).map fun i => (Patch.last? patches (offset + i)).getD 0 := by
  simp only [Memory.read, h _]

/-- Where nothing was stored there are zeros. -/
theorem Holds.read_zeros (h : m.Holds patches)
    (hnone : ∀ p ∈ patches, ∀ i < len, p.byte? (offset + i) = none) :
    m.read offset len = List.replicate len 0 := by
  rw [h.read, List.eq_replicate_iff]
  refine ⟨by simp, ?_⟩
  intro b hb
  obtain ⟨i, hi, rfl⟩ := List.mem_map.mp hb
  have hlast : Patch.last? patches (offset + i) = none :=
    Patch.last?_eq_none_iff.mpr fun p hp => hnone p hp i (List.mem_range.mp hi)
  rw [hlast]
  rfl

end Memory
end ConsoleHost
