import ConsoleHost.Decimal.Layout
import Mathlib.Algebra.Order.Field.Power
import Mathlib.Data.List.TakeWhile
import Mathlib.Data.Rat.Cast.Order
import Mathlib.Tactic.FieldSimp
import Mathlib.Tactic.Linarith
import Mathlib.Tactic.NormNum
import Mathlib.Tactic.Positivity
import Mathlib.Tactic.Ring

/-! Reading numerals: the rational that a text denotes, and that of a printed decimal. -/
namespace ConsoleHost

/-- What a decimal is worth. -/
def Decimal.value (d : Decimal) : ℚ := d.digits * 10 ^ d.exponent

namespace Numeral

/-- A number in base ten. There is at least one digit. -/
def whole? (cs : List Char) : Option Nat :=
  if cs ≠ [] ∧ cs.all Char.isDigit then some (Nat.ofDigitChars 10 cs 0) else none

/-- Digits, or digits on both sides of a point. -/
def fixed? (cs : List Char) : Option ℚ :=
  match cs.dropWhile (· ≠ '.') with
  | [] => (whole? cs).map fun (n : Nat) => (n : ℚ)
  | _ :: fraction =>
    (whole? (cs.takeWhile (· ≠ '.'))).bind fun n =>
      (whole? fraction).map fun (f : Nat) => (n + f / 10 ^ fraction.length : ℚ)

/-- A power of ten always has its sign. -/
def exponent? : List Char → Option Int
  | '+' :: cs => (whole? cs).map fun (n : Nat) => (n : Int)
  | '-' :: cs => (whole? cs).map fun (n : Nat) => (-n : Int)
  | _ => none

/-- A numeral without a sign: positional, or one digit before the point and a power of ten. -/
def unsigned? (cs : List Char) : Option ℚ :=
  match cs.dropWhile (· ≠ 'e') with
  | [] => fixed? cs
  | _ :: power =>
    let mantissa := cs.takeWhile (· ≠ 'e')
    if (mantissa.takeWhile (· ≠ '.')).length = 1 then
      (fixed? mantissa).bind fun v => (exponent? power).map fun e => v * 10 ^ e
    else none

/-- The number that a text denotes, if it is a numeral. -/
def value? (text : String) : Option ℚ :=
  match text.toList with
  | '-' :: cs => (unsigned? cs).map fun v => -v
  | cs => unsigned? cs

/-- There is nothing but digits. -/
def Digits (cs : List Char) : Prop := ∀ c ∈ cs, c.isDigit = true

variable {a b cs ds : List Char} {c : Char} {v : ℚ} {e : Int} {d : Decimal}

theorem Digits.append (ha : Digits a) (hb : Digits b) : Digits (a ++ b) := by
  intro c hc
  rcases List.mem_append.mp hc with hc | hc
  · exact ha c hc
  · exact hb c hc

theorem digits_toDigits (n : Nat) : Digits (Nat.toDigits 10 n) := fun _ hc =>
  Nat.isDigit_of_mem_toDigits (by norm_num) (by norm_num) hc

theorem digits_zeros (n : Nat) : Digits (List.replicate n '0') := by
  intro c hc
  rw [List.eq_of_mem_replicate hc]
  rfl

theorem Digits.ne (h : Digits ds) (hc : c.isDigit = false) : ∀ x ∈ ds, decide (x ≠ c) = true := by
  intro x hx
  rw [decide_eq_true_iff]
  rintro rfl
  simp [h x hx] at hc

theorem whole?_digits (h : Digits ds) (hne : ds ≠ []) :
    whole? ds = some (Nat.ofDigitChars 10 ds 0) := by
  rw [whole?, if_pos ⟨hne, List.all_eq_true.mpr h⟩]

theorem fixed?_digits (h : Digits ds) (hne : ds ≠ []) :
    fixed? ds = some (Nat.ofDigitChars 10 ds 0 : ℚ) := by
  rw [fixed?, List.dropWhile_eq_nil_iff.mpr (h.ne rfl), whole?_digits h hne]
  rfl

/-- A point among digits divides by a power of ten. -/
theorem fixed?_point (ha : Digits a) (hb : Digits b) (hna : a ≠ []) (hnb : b ≠ []) :
    fixed? (a ++ '.' :: b) = some (Nat.ofDigitChars 10 (a ++ b) 0 / 10 ^ b.length : ℚ) := by
  have hda := ha.ne (c := '.') rfl
  rw [fixed?, List.dropWhile_append_of_pos hda, List.takeWhile_append_of_pos hda]
  simp only [ne_eq, not_true_eq_false, decide_false, Bool.false_eq_true, not_false_eq_true,
    List.dropWhile_cons_of_neg, List.takeWhile_cons_of_neg, List.append_nil, whole?_digits ha hna,
    whole?_digits hb hnb, Option.bind_some, Option.map_some, Option.some.injEq]
  have hsplit : Nat.ofDigitChars 10 b (Nat.ofDigitChars 10 a 0) =
      10 ^ b.length * Nat.ofDigitChars 10 a 0 + Nat.ofDigitChars 10 b 0 :=
    Nat.ofDigitChars_eq_ofDigitChars_zero
  rw [Nat.ofDigitChars_append, hsplit]
  push_cast
  field_simp

theorem exponent?_sign (e : Int) :
    exponent? ((if e < 0 then '-' else '+') :: Nat.toDigits 10 e.natAbs) = some e := by
  have h := whole?_digits (digits_toDigits e.natAbs) Nat.toDigits_ne_nil
  rw [Nat.ofDigitChars_ten_toDigits] at h
  split
  · simp only [exponent?, h, Option.map_some, Option.some.injEq]
    omega
  · simp only [exponent?, h, Option.map_some, Option.some.injEq]
    omega

/-- Without an exponent a numeral is positional. -/
theorem unsigned?_fixed (h : ∀ x ∈ cs, decide (x ≠ 'e') = true) : unsigned? cs = fixed? cs := by
  rw [unsigned?, List.dropWhile_eq_nil_iff.mpr h]

theorem unsigned?_scientific (h : ∀ x ∈ cs, decide (x ≠ 'e') = true)
    (hone : (cs.takeWhile (· ≠ '.')).length = 1) (hv : fixed? cs = some v) :
    unsigned? (cs ++ 'e' :: (if e < 0 then '-' else '+') :: Nat.toDigits 10 e.natAbs) =
      some (v * 10 ^ e) := by
  rw [unsigned?, List.dropWhile_append_of_pos h, List.takeWhile_append_of_pos h]
  simp only [ne_eq, not_true_eq_false, decide_false, Bool.false_eq_true, not_false_eq_true,
    List.dropWhile_cons_of_neg, List.takeWhile_cons_of_neg, List.append_nil]
  rw [if_pos hone, hv, exponent?_sign]
  rfl

/-- No numeral without a sign starts with one. -/
theorem unsigned?_minus (cs : List Char) : unsigned? ('-' :: cs) = none := by
  have hw (r : List Char) : whole? ('-' :: r) = none := by simp [whole?]
  have hf (r : List Char) : fixed? ('-' :: r) = none := by
    rw [fixed?]
    simp only [ne_eq, Char.reduceEq, not_false_eq_true, decide_true, List.dropWhile_cons_of_pos,
      List.takeWhile_cons_of_pos, hw]
    split <;> rfl
  rw [unsigned?]
  simp only [ne_eq, Char.reduceEq, not_false_eq_true, decide_true, List.dropWhile_cons_of_pos,
    List.takeWhile_cons_of_pos, hf]
  split
  · rfl
  · simp

theorem value?_of_unsigned? (h : unsigned? cs = some v) : value? (String.ofList cs) = some v := by
  rw [value?, String.toList_ofList]
  split
  · simp [unsigned?_minus] at h
  · exact h

theorem value?_minus (h : unsigned? cs = some v) :
    value? (String.ofList ('-' :: cs)) = some (-v) := by
  rw [value?, String.toList_ofList]
  simp [h]

end Numeral
end ConsoleHost
