import ConsoleHost.Dialogue

/-! Fields: text filled up with spaces to a width. -/
namespace ConsoleHost

inductive Alignment where
  | left
  | right
  deriving DecidableEq, Repr

namespace Field

/-- The sign of a width says where the text stands. -/
def alignment (width : Int32) : Alignment := if width < 0 then .left else .right

/-- The number of columns of a width: `2 ^ 31` at most. -/
def columns (width : Int32) : Nat := width.toInt.natAbs

/-- The most spaces written at once. -/
def chunk : Nat := 4096

def spaces (n : Nat) : String := String.ofList (List.replicate n ' ')

def fullChunk : String := spaces chunk

/-- Writes spaces piece by piece: a field can be too wide to be built in memory. -/
def fill (n : Nat) : Dialogue Unit :=
  if n = 0 then .done ()
  else if n < chunk then .say (spaces n)
  else .write fullChunk fun _ => fill (n - chunk)
termination_by n
decreasing_by simp_all [chunk]; omega

@[simp] theorem fill_zero : fill 0 = .done () := by
  rw [fill, if_pos rfl]

theorem fill_of_lt {n : Nat} (h0 : n ≠ 0) (h : n < chunk) : fill n = .say (spaces n) := by
  rw [fill, if_neg h0, if_pos h]

theorem fill_add_chunk (n : Nat) : fill (n + chunk) = .write fullChunk fun _ => fill n := by
  rw [fill, if_neg (by simp [chunk]), if_neg (by omega), Nat.add_sub_cancel]

/-- A number of spaces is nothing, less than a whole chunk, or a chunk more than another number. -/
theorem fill_induction {P : Nat → Prop} (zero : P 0) (rest : ∀ n, n ≠ 0 → n < chunk → P n)
    (add : ∀ n, P n → P (n + chunk)) (n : Nat) : P n := by
  induction n using Nat.strongRecOn with
  | ind n ih =>
    rcases Nat.lt_or_ge n chunk with hlt | hge
    · by_cases h0 : n = 0
      · exact h0 ▸ zero
      · exact rest n h0 hlt
    · obtain ⟨k, rfl⟩ : ∃ k, n = k + chunk := ⟨n - chunk, by omega⟩
      exact add k (ih k (by simp [chunk]))

/-- Writes a text in a field of the given width. A text that is too long is written whole. -/
def write (text : String) (width : Int32) : Dialogue Unit :=
  let room := columns width - text.length
  match alignment width with
  | .left => .write text fun _ => fill room
  | .right => (fill room).bind fun _ => .say text

end Field
end ConsoleHost
