import Mathlib
import ConsoleHost.Memory.Window
import ConsoleHost.Proofs.Memory.Overwrite

/-! Slices: a memory as the list of its bytes, of which a window is a part that can be read and
replaced. -/
namespace ConsoleHost

/-- A guest's integer read without a sign. -/
theorem toNat_toUInt32 (v : Int32) :
    (v.toUInt32.toNat : Int) = if v.toInt < 0 then v.toInt + 2 ^ 32 else v.toInt := by
  have hint : v.toInt = if 2 * v.toUInt32.toNat < 2 ^ 32 then (v.toUInt32.toNat : Int)
      else v.toUInt32.toNat - 2 ^ 32 := v.toBitVec.toInt_eq_toNat_cond
  have hlt : v.toUInt32.toNat < 2 ^ 32 := v.toUInt32.toNat_lt
  split at hint <;> split <;> omega

/-- A negative integer is read as a great one. -/
theorem le_toNat_toUInt32 {v : Int32} (h : v.toInt < 0) : 2 ^ 31 ≤ v.toUInt32.toNat := by
  have hvalue := toNat_toUInt32 v
  have hlow := v.le_toInt
  rw [if_pos h] at hvalue
  omega

namespace Window

/-- The places that a window names, inside of a memory or not. -/
def Covers (w : Window) (i : Nat) : Prop := w.offset.toNat ≤ i ∧ i < w.offset.toNat + w.len.toNat

def Disjoint (w w' : Window) : Prop := ∀ i, ¬ (w.Covers i ∧ w'.Covers i)

end Window

namespace Memory

variable {m m' : Memory} {w w' : Window} {offset n k : Nat} {bytes : List UInt8}

/-! ### Bytes as a list -/

theorem read_append (m : Memory) (offset n k : Nat) :
    m.read offset (n + k) = m.read offset n ++ m.read (offset + n) k := by
  simp [read, List.range_add, Function.comp_def, Nat.add_assoc]

theorem take_read (h : k ≤ n) : (m.read offset n).take k = m.read offset k := by
  obtain ⟨rest, rfl⟩ := Nat.exists_eq_add_of_le h
  rw [read_append, List.take_left' length_read]

theorem drop_read (h : k ≤ n) : (m.read offset n).drop k = m.read (offset + k) (n - k) := by
  obtain ⟨rest, rfl⟩ := Nat.exists_eq_add_of_le h
  rw [read_append, List.drop_left' length_read, Nat.add_sub_cancel_left]

theorem take_toList (h : n ≤ m.size) : m.toList.take n = m.read 0 n := take_read h

theorem drop_toList (h : offset ≤ m.size) :
    m.toList.drop offset = m.read offset (m.size - offset) := by
  rw [toList, drop_read h, Nat.zero_add]

theorem take_drop_toList (h : offset + n ≤ m.size) :
    (m.toList.drop offset).take n = m.read offset n := by
  rw [drop_toList (by omega), take_read (by omega)]

/-- Overwritten bytes are replaced in the list. -/
theorem Overwritten.toList (h : m.Overwritten m' offset bytes)
    (hfits : offset + bytes.length ≤ m.size) :
    m'.toList = m.toList.take offset ++ bytes ++ m.toList.drop (offset + bytes.length) := by
  have hbefore : m'.read 0 offset = m.read 0 offset :=
    read_congr fun i hi => h.outside _ (.inl (by omega))
  have hafter : m'.toList.drop (offset + bytes.length) =
      m.toList.drop (offset + bytes.length) := by
    rw [drop_toList (h.size ▸ hfits), drop_toList hfits, h.size]
    exact read_congr fun i _ => h.outside _ (.inr (by omega))
  have hsplit := List.take_append_drop (offset + bytes.length) m'.toList
  rw [← hsplit, hafter, take_toList (h.size ▸ hfits), read_append, Nat.zero_add, h.read, hbefore,
    take_toList (by omega)]

theorem toList_ofList (bytes : List UInt8) : (ofList bytes).toList = bytes := by
  have hsize : (ofList bytes).size = bytes.length := size_write
  have hwritten : Overwritten ⟨bytes.length, 0, ∅⟩ (ofList bytes) 0 bytes :=
    overwritten_write (by simp)
  rw [toList, hsize, hwritten.read]

/-! ### Windows -/

/-- What a memory is after a write that may be refused. -/
def after (m : Memory) : Except HostError Memory → Memory
  | .ok m' => m'
  | .error _ => m

theorem slice_eq (h : w.Fits m.size) :
    m.slice w = .ok ((m.toList.drop w.offset.toNat).take w.len.toNat) := by
  rw [slice_of_fits h, take_drop_toList h]

/-- A write to a window overwrites its first bytes, as many as it has. -/
theorem exists_splice_eq (h : w.Fits m.size) (bytes : List UInt8) :
    ∃ m', m.splice w bytes = .ok m' ∧
      m.Overwritten m' w.offset.toNat (bytes.take w.len.toNat) := by
  refine ⟨_, splice_of_fits h, overwritten_write ?_⟩
  exact (Nat.add_le_add_left (List.length_take_le _ _) _).trans h

theorem Overwritten.slice_of_disjoint (h : m.Overwritten m' w.offset.toNat bytes)
    (hlen : bytes.length ≤ w.len.toNat) (hw : w'.Disjoint w) : m'.slice w' = m.slice w' := by
  by_cases hfits : w'.Fits m.size
  · rw [slice_of_fits hfits, slice_of_fits (h.size ▸ hfits)]
    refine congrArg _ (read_congr fun i hi => h.outside _ ?_)
    have hi := hw (w'.offset.toNat + i)
    simp only [Window.Covers] at hi
    omega
  · rw [slice_of_not_fits hfits, slice_of_not_fits (h.size ▸ hfits), h.size]

theorem fill_eq_splice (m : Memory) (w : Window) (b : UInt8) :
    m.fill w b = m.splice w (List.replicate w.len.toNat b) := by
  by_cases h : w.Fits m.size
  · simp [fill, slice_of_fits h, bind, Except.bind, List.map_const']
  · rw [fill, slice_of_not_fits h, splice_of_not_fits h]
    rfl

/-- A window of a guest is in a memory if it ends there, where the end is the sum of two numbers
without a sign, and else it is refused in the same way to a reader and to a writer. A reader is
given its bytes; a writer replaces them, or the first of them, and nothing else. -/
theorem slices_exact (m : Memory) (offset len : Int32) :
    let w := Window.ofGuest offset len
    let o := offset.toUInt32.toNat
    let l := len.toUInt32.toNat
    let refusal := HostError.outOfBounds offset.toUInt32 len.toUInt32 m.size
    (∀ v : Int32, (v.toUInt32.toNat : Int) = (if v.toInt < 0 then v.toInt + 2 ^ 32 else v.toInt) ∧
      (v.toInt < 0 → 2 ^ 31 ≤ v.toUInt32.toNat)) ∧
    (o + l ≤ m.size →
      m.slice w = .ok ((m.toList.drop o).take l) ∧ ((m.toList.drop o).take l).length = l ∧
      ∀ bytes, ∃ m', m.splice w bytes = .ok m' ∧ m'.size = m.size ∧
        m'.toList = m.toList.take o ++ bytes.take l ++ m.toList.drop (o + min l bytes.length) ∧
        (bytes.length = l → m'.slice w = .ok bytes) ∧
        ∀ offset' len', (Window.ofGuest offset' len').Disjoint w →
          m'.slice (.ofGuest offset' len') = m.slice (.ofGuest offset' len')) ∧
    (m.size < o + l →
      m.slice w = .error refusal ∧
      ∀ bytes, m.splice w bytes = .error refusal ∧ m.after (m.splice w bytes) = m) ∧
    ∀ b, m.fill w b = m.splice w (List.replicate l b) := by
  intro w o l refusal
  refine ⟨fun v => ⟨toNat_toUInt32 v, le_toNat_toUInt32⟩,
    fun hfits => ⟨slice_eq hfits, ?_, fun bytes => ?_⟩, fun hlt => ?_, m.fill_eq_splice w⟩
  · rw [take_drop_toList hfits, length_read]
  · obtain ⟨m', hsplice, hover⟩ := exists_splice_eq (w := w) hfits bytes
    have hlen : (bytes.take l).length = min l bytes.length := List.length_take
    refine ⟨m', hsplice, hover.size, ?_, fun hbytes => ?_, fun offset' len' hdisjoint => ?_⟩
    · rw [← hlen]
      exact hover.toList ((Nat.add_le_add_left (List.length_take_le _ _) _).trans hfits)
    · have hread : m'.read o (bytes.take l).length = bytes.take l := hover.read
      rw [List.take_of_length_le hbytes.le, hbytes] at hread
      rw [slice_of_fits (hover.size ▸ hfits)]
      exact congrArg _ hread
    · exact hover.slice_of_disjoint (List.length_take_le _ _) hdisjoint
  · have hsplice : ∀ bytes, m.splice w bytes = .error refusal :=
      fun bytes => splice_of_not_fits (Nat.not_le.mpr hlt)
    refine ⟨slice_of_not_fits (Nat.not_le.mpr hlt), fun bytes => ⟨hsplice bytes, ?_⟩⟩
    rw [hsplice]
    rfl

/-- A byte after a window that is written, and a window whose offset and length add up to
`2 ^ 32`. -/
theorem slices_exact_wrap :
    let m := ofList [1, 2, 3, 4]
    (Int32.toUInt32 1).toNat + (Int32.toUInt32 2).toNat ≤ m.size ∧
      (Window.ofGuest 3 1).Disjoint (Window.ofGuest 1 2) ∧
      (∃ m', m.splice (.ofGuest 1 2) [8, 9] = .ok m' ∧ m'.toList = [1, 8, 9, 4] ∧
        m'.slice (.ofGuest 1 2) = .ok [8, 9] ∧
        m'.slice (.ofGuest 3 1) = m.slice (.ofGuest 3 1)) ∧
      m.size < (Int32.toUInt32 (-1)).toNat + (Int32.toUInt32 1).toNat ∧
      m.slice (.ofGuest (-1) 1) = .error (.outOfBounds 0xFFFFFFFF 1 m.size) := by
  intro m
  have hsize : m.size = 4 := size_write
  have hfits : (Int32.toUInt32 1).toNat + (Int32.toUInt32 2).toNat ≤ m.size := by
    rw [hsize]
    decide
  have hlt : m.size < (Int32.toUInt32 (-1)).toNat + (Int32.toUInt32 1).toNat := by
    rw [hsize]
    decide
  have hdisjoint : (Window.ofGuest 3 1).Disjoint (Window.ofGuest 1 2) := by
    rintro i ⟨⟨h, -⟩, -, h'⟩
    change 3 ≤ i at h
    change i < 1 + 2 at h'
    omega
  obtain ⟨-, -, hwrite⟩ := (slices_exact m 1 2).2.1 hfits
  obtain ⟨m', hsplice, -, hlist, hback, hother⟩ := hwrite [8, 9]
  rw [toList_ofList] at hlist
  exact ⟨hfits, hdisjoint, ⟨m', hsplice, hlist, hback rfl, hother 3 1 hdisjoint⟩, hlt,
    ((slices_exact m (-1) 1).2.2.1 hlt).1⟩

example : (ofList [1, 2, 3, 4]).slice (.ofGuest 4 0) = .ok [] := by rfl

example : (ofList [1, 2, 3, 4]).slice (.ofGuest 5 0) = .error (.outOfBounds 5 0 4) := by rfl

end Memory
end ConsoleHost
