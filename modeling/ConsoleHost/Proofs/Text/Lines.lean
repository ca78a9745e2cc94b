import ConsoleHost.Text.Line
import ConsoleHost.Text.Utf8

/-! The lines of a stream of bytes: what comes of cutting it after every newline. -/
namespace ConsoleHost.Text

variable {b : UInt8} {bytes rest : List UInt8}

/-- The bytes cut after every newline. What follows the last newline is a piece too, if there is
anything. -/
def pieces : List UInt8 → List (List UInt8)
  | [] => []
  | b :: rest =>
    if isNewline b then [b] :: pieces rest
    else
      match pieces rest with
      | [] => [[b]]
      | piece :: more => (b :: piece) :: more

/-- The texts of the pieces, each without its newline. -/
def lines (bytes : List UInt8) : List String := (pieces bytes).map fun piece => chomp (decode piece)

theorem cutLine_cons_newline (h : isNewline b = true) : cutLine (b :: rest) = ([b], rest) := by
  simp [cutLine, h]

theorem cutLine_cons (h : isNewline b = false) :
    cutLine (b :: rest) = (b :: (cutLine rest).1, (cutLine rest).2) := by
  unfold cutLine
  rw [List.dropWhile_cons_of_pos (by simp [h]), List.takeWhile_cons_of_pos (by simp [h])]
  split <;> simp_all

/-- Cutting off the first line leaves the other pieces to be cut. -/
theorem pieces_eq (h : bytes ≠ []) :
    pieces bytes = (cutLine bytes).1 :: pieces (cutLine bytes).2 := by
  induction bytes with
  | nil => exact absurd rfl h
  | cons b rest ih =>
    rw [pieces]
    by_cases hb : isNewline b = true
    · rw [if_pos hb, cutLine_cons_newline hb]
    · rw [if_neg hb, cutLine_cons (by simpa using hb)]
      by_cases hrest : rest = []
      · subst hrest
        rfl
      · rw [ih hrest]

theorem lines_eq (h : bytes ≠ []) :
    lines bytes = chomp (decode (cutLine bytes).1) :: lines (cutLine bytes).2 := by
  rw [lines, pieces_eq h]
  rfl

end ConsoleHost.Text
