import Std.Data.TreeMap

/-! Guest memory: bytes that are zero until they are written, in a size that only grows. -/
namespace ConsoleHost

structure Memory where
  /-- In bytes. -/
  size : Nat
  /-- The most pages it can grow to. -/
  limit : Nat
  /-- The bytes that were written. -/
  cells : Std.TreeMap Nat UInt8

namespace Memory

def pageSize : Nat := 65536

/-- Pages are numbered with 16 bits. -/
def maxPages : Nat := 65536

def ofPages (pages : Nat) (max : Option Nat) : Memory :=
  ⟨pages * pageSize, max.getD maxPages, ∅⟩

def pages (m : Memory) : Nat := m.size / pageSize

def byte (m : Memory) (i : Nat) : UInt8 := m.cells.getD i 0

/-- Outside the memory nothing is written. -/
def setByte (m : Memory) (i : Nat) (b : UInt8) : Memory :=
  if i < m.size then { m with cells := m.cells.insert i b } else m

def read (m : Memory) (offset len : Nat) : List UInt8 :=
  (List.range len).map fun i => m.byte (offset + i)

def write (m : Memory) (offset : Nat) : List UInt8 → Memory
  | [] => m
  | b :: rest => (m.setByte offset b).write (offset + 1) rest

/-- All bytes in order. -/
def toList (m : Memory) : List UInt8 := m.read 0 m.size

/-- A memory of the given bytes, which cannot grow. -/
def ofList (bytes : List UInt8) : Memory := (⟨bytes.length, 0, ∅⟩ : Memory).write 0 bytes

/-- Adds pages of zeros, unless that exceeds the limit. -/
def grow? (m : Memory) (delta : Nat) : Option Memory :=
  if m.pages + delta ≤ m.limit then some { m with size := m.size + delta * pageSize } else none

variable {m g : Memory} {i offset len delta : Nat} {b : UInt8} {bytes : List UInt8}

@[simp] theorem size_setByte : (m.setByte i b).size = m.size := by
  unfold setByte
  split <;> rfl

@[simp] theorem limit_setByte : (m.setByte i b).limit = m.limit := by
  unfold setByte
  split <;> rfl

theorem byte_setByte (m : Memory) (i j : Nat) (b : UInt8) :
    (m.setByte i b).byte j = if i = j ∧ i < m.size then b else m.byte j := by
  unfold setByte byte
  by_cases h : i < m.size
  · simp [h, Std.TreeMap.getD_insert]
  · simp [h]

@[simp] theorem size_write : (m.write offset bytes).size = m.size := by
  induction bytes generalizing m offset with
  | nil => rfl
  | cons b rest ih => simp [write, ih]

@[simp] theorem limit_write : (m.write offset bytes).limit = m.limit := by
  induction bytes generalizing m offset with
  | nil => rfl
  | cons b rest ih => simp [write, ih]

/-- A write changes the bytes from its offset on, as many as it has, and no others. -/
theorem byte_write (h : offset + bytes.length ≤ m.size) (j : Nat) :
    (m.write offset bytes).byte j =
      if offset ≤ j then (bytes[j - offset]?).getD (m.byte j) else m.byte j := by
  induction bytes generalizing m offset with
  | nil => simp [write]
  | cons b rest ih =>
    have hs : offset < m.size := by simp at h; omega
    rw [write, ih (by simp at h ⊢; omega), byte_setByte]
    by_cases hj : offset = j
    · subst hj
      simp [hs, show ¬ offset + 1 ≤ offset by omega]
    · by_cases hl : offset ≤ j
      · have he : j - offset = (j - (offset + 1)) + 1 := by omega
        simp [hj, hl, he, show offset + 1 ≤ j by omega]
      · simp [hj, hl, show ¬ offset + 1 ≤ j by omega]

@[simp] theorem length_read : (m.read offset len).length = len := by simp [read]

theorem getElem?_read (m : Memory) (offset len i : Nat) :
    (m.read offset len)[i]? = if i < len then some (m.byte (offset + i)) else none := by
  by_cases h : i < len <;> simp [read, h]

theorem read_congr (h : ∀ i < len, m.byte (offset + i) = g.byte (offset + i)) :
    m.read offset len = g.read offset len := by
  simp only [read, List.map_inj_left, List.mem_range]
  exact h

theorem byte_of_grow? (h : m.grow? delta = some g) (i : Nat) : g.byte i = m.byte i := by
  unfold grow? at h
  split at h <;> simp_all
  rw [← h]
  rfl

end Memory
end ConsoleHost
