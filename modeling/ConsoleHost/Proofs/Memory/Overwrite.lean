import ConsoleHost.Memory.Basic

/-! Overwriting: what a write leaves in a memory, and what is read back of it. -/
namespace ConsoleHost.Memory

variable {m : Memory} {offset len : Nat} {bytes : List UInt8}

/-- The second memory is the first with some bytes overwritten, and no others. -/
structure Overwritten (m m' : Memory) (offset : Nat) (bytes : List UInt8) : Prop where
  size : m'.size = m.size
  limit : m'.limit = m.limit
  inside : ∀ i (h : i < bytes.length), m'.byte (offset + i) = bytes[i]
  outside : ∀ i, i < offset ∨ offset + bytes.length ≤ i → m'.byte i = m.byte i

theorem overwritten_write (h : offset + bytes.length ≤ m.size) :
    m.Overwritten (m.write offset bytes) offset bytes := by
  refine ⟨size_write, limit_write, ?_, ?_⟩
  · intro i hi
    rw [byte_write h, if_pos (by omega), Nat.add_sub_cancel_left, List.getElem?_eq_getElem hi]
    rfl
  · intro i hi
    rw [byte_write h]
    split
    · rw [List.getElem?_eq_none (by omega)]
      rfl
    · rfl

/-- What was overwritten is read back. -/
theorem Overwritten.read {m' : Memory} (h : m.Overwritten m' offset bytes) :
    m'.read offset bytes.length = bytes := by
  apply List.ext_getElem (by simp)
  intro i _ hi
  simpa [Memory.read] using h.inside i hi

/-- What is read back of a window whose first bytes were overwritten. -/
theorem read_write_prefix (hl : bytes.length ≤ len) (h : offset + len ≤ m.size) :
    (m.write offset bytes).read offset len = bytes ++ (m.read offset len).drop bytes.length := by
  apply List.ext_getElem?
  intro i
  have hbyte : (m.write offset bytes).byte (offset + i) =
      (bytes[i]?).getD (m.byte (offset + i)) := by
    rw [byte_write (by omega), if_pos (by omega), Nat.add_sub_cancel_left]
  rw [getElem?_read, hbyte]
  by_cases hi : i < bytes.length
  · rw [if_pos (by omega), List.getElem?_append_left hi, List.getElem?_eq_getElem hi]
    rfl
  · rw [List.getElem?_append_right (by omega), List.getElem?_drop, getElem?_read,
      List.getElem?_eq_none (by omega), show bytes.length + (i - bytes.length) = i by omega]
    rfl

end ConsoleHost.Memory
