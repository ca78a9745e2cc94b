import Mathlib
import ConsoleHost.Proofs.Decimal.Thresholds

/-! Forms: which of two forms the text of a real has, what stands in it, and that nothing on the way
to it goes out of range. -/
namespace ConsoleHost

open ConsoleHost.Double ConsoleHost.Interval

variable {x : Double} {d : Decimal} {ds : List Char} {m n : Nat} {q point e : Int}

namespace Numeral

theorem digitChar_ne_zero {r : Nat} (h0 : r ≠ 0) (h : r < 10) : r.digitChar ≠ '0' := by
  interval_cases r <;> simp_all

theorem head?_toDigits_ne_zero (hn : n ≠ 0) : (Nat.toDigits 10 n).head? ≠ some '0' := by
  induction n using Nat.strongRecOn with
  | ind n ih =>
    by_cases hlt : n < 10
    · rw [Nat.toDigits_of_lt_base hlt]
      simpa using digitChar_ne_zero hn hlt
    · rw [Nat.toDigits_of_base_le (by norm_num) (by omega),
        List.head?_append_of_ne_nil _ Nat.toDigits_ne_nil]
      exact ih (n / 10) (by omega) (by omega)

theorem getLast?_toDigits_ne_zero (hn : ¬ 10 ∣ n) : (Nat.toDigits 10 n).getLast? ≠ some '0' := by
  have hlast : (n % 10).digitChar ≠ '0' := digitChar_ne_zero (by omega) (Nat.mod_lt _ (by norm_num))
  by_cases hlt : n < 10
  · rw [Nat.toDigits_of_lt_base hlt]
    rw [Nat.mod_eq_of_lt hlt] at hlast
    simpa using hlast
  · rw [Nat.toDigits_of_base_le (by norm_num) (by omega), List.getLast?_concat]
    simpa using hlast

/-- A point and digits after it, if there are any. -/
def pointed (fraction : List Char) : List Char := if fraction.isEmpty then [] else '.' :: fraction

@[simp] theorem pointed_nil : pointed [] = [] := rfl

theorem pointed_of_ne_nil (h : ds ≠ []) : pointed ds = '.' :: ds := by simp [pointed, h]

/-- One digit that is not zero, perhaps a fraction that does not end in zero, and a power of ten
with its sign, which does not start with zero. -/
inductive Scientific : List Char → Prop where
  | intro {first sign : Char} {fraction power : List Char} (hfirst : first.isDigit = true)
      (hnonzero : first ≠ '0') (hfraction : Digits fraction)
      (hlast : fraction.getLast? ≠ some '0') (hsign : sign = '+' ∨ sign = '-')
      (hpower : Digits power) (hne : power ≠ []) (hhead : power.head? ≠ some '0') :
      Scientific (first :: pointed fraction ++ 'e' :: sign :: power)

/-- Digits, with a zero at their start only if there is no other digit, and perhaps a fraction that
does not end in zero. -/
inductive Positional : List Char → Prop where
  | intro {whole fraction : List Char} (hwhole : Digits whole) (hne : whole ≠ [])
      (hhead : whole.head? = some '0' → whole = ['0']) (hfraction : Digits fraction)
      (hlast : fraction.getLast? ≠ some '0') : Positional (whole ++ pointed fraction)

theorem Scientific.head?_ne_minus (h : Scientific ds) : ds.head? ≠ some '-' := by
  cases h with
  | intro hfirst =>
    rintro ⟨⟩
    cases hfirst

theorem Positional.head?_ne_minus (h : Positional ds) : ds.head? ≠ some '-' := by
  cases h with
  | intro hwhole hne =>
    obtain ⟨c, rest, rfl⟩ := List.exists_cons_of_ne_nil hne
    have hc := hwhole c (by simp)
    rintro ⟨⟩
    cases hc

end Numeral

open Numeral

namespace Layout

theorem decimal_printed (d : Decimal) :
    printed.decimal d =
      if -6 < d.point ∧ d.point ≤ 21 then printed.positional (Nat.toDigits 10 d.digits) d.point
      else printed.scientific (Nat.toDigits 10 d.digits) (d.point - 1) := by
  simp only [decimal, Nat.toString_eq_ofList_toDigits, String.toList_ofList]
  rfl

theorem scientific_form (h : Digits ds) (hne : ds ≠ []) (hhead : ds.head? ≠ some '0')
    (hlast : ds.getLast? ≠ some '0') (he : e ≠ 0) :
    Scientific (printed.scientific ds e).toList := by
  obtain ⟨c, fraction, rfl⟩ := List.exists_cons_of_ne_nil hne
  rw [toList_scientific]
  refine .intro (h c (by simp)) (by simpa using hhead) ?_ ?_ ?_ (digits_toDigits _)
    Nat.toDigits_ne_nil (head?_toDigits_ne_zero (by omega))
  · exact fun x hx => h x (List.mem_cons_of_mem _ hx)
  · cases fraction with
    | nil => simp
    | cons b rest => simpa using hlast
  · split
    · exact .inr rfl
    · exact .inl rfl

theorem positional_form (h : Digits ds) (hne : ds ≠ []) (hhead : ds.head? ≠ some '0')
    (hlast : ds.getLast? ≠ some '0') : Positional (printed.positional ds point).toList := by
  by_cases h0 : point ≤ 0
  · have hfraction : List.replicate (-point).toNat '0' ++ ds ≠ [] := by simp [hne]
    rw [toList_positional_of_nonpos h0, ← pointed_of_ne_nil hfraction]
    refine .intro (digits_zeros 1) (by simp) (fun _ => rfl) ((digits_zeros _).append h) ?_
    rwa [List.getLast?_append_of_ne_nil _ hne]
  · by_cases hlen : (ds.length : Int) ≤ point
    · rw [toList_positional_of_length_le h0 hlen]
      have hwhole := h.append (digits_zeros (point - ds.length).toNat)
      have hform : Positional (ds ++ List.replicate (point - ds.length).toNat '0' ++ pointed []) := by
        refine .intro hwhole (by simp [hne]) ?_ nofun (by simp)
        rw [List.head?_append_of_ne_nil _ hne]
        exact fun hzero => absurd hzero hhead
      rwa [pointed_nil, List.append_nil] at hform
    · have hfraction : ds.drop point.toNat ≠ [] := by
        simp
        omega
      have hwhole : ds.take point.toNat ≠ [] := by
        simp [hne]
        omega
      rw [toList_positional_of_lt h0 hlen, ← pointed_of_ne_nil hfraction]
      refine .intro (fun c hc => h c (List.mem_of_mem_take hc)) hwhole ?_
        (fun c hc => h c (List.mem_of_mem_drop hc)) ?_
      · rw [List.head?_take, if_neg (by omega)]
        exact fun hzero => absurd hzero hhead
      · rw [List.getLast?_drop, if_neg (by omega)]
        exact hlast

/-- A positional text has no exponent. -/
theorem e_mem_decimal (d : Decimal) :
    'e' ∈ (printed.decimal d).toList ↔ ¬ (-6 < d.point ∧ d.point ≤ 21) := by
  rw [decimal_printed]
  split
  · rename_i h
    refine iff_of_false (fun hmem => ?_) (not_not.mpr h)
    simpa using noExponent_positional (digits_toDigits d.digits) 'e' hmem
  · rename_i h
    obtain ⟨c, rest, hdigits⟩ := List.exists_cons_of_ne_nil (Nat.toDigits_ne_nil (n := d.digits))
    rw [hdigits, toList_scientific]
    simp [h]

/-- The text of digits that neither start nor end in zero has one of the two forms. -/
theorem decimal_form (hd : d.digits ≠ 0) (hlast : ¬ 10 ∣ d.digits) :
    ('e' ∈ (printed.decimal d).toList → Scientific (printed.decimal d).toList) ∧
      ('e' ∉ (printed.decimal d).toList → Positional (printed.decimal d).toList) := by
  have hdigits := digits_toDigits d.digits
  have hhead := head?_toDigits_ne_zero hd
  have hend := getLast?_toDigits_ne_zero hlast
  rw [e_mem_decimal, decimal_printed]
  constructor
  · intro h
    rw [if_neg h]
    exact scientific_form hdigits Nat.toDigits_ne_nil hhead hend (by omega)
  · intro h
    rw [if_pos (not_not.mp h)]
    exact positional_form hdigits Nat.toDigits_ne_nil hhead hend

/-- It has no sign. -/
theorem head?_decimal (hd : d.digits ≠ 0) (hlast : ¬ 10 ∣ d.digits) :
    (printed.decimal d).toList.head? ≠ some '-' := by
  obtain ⟨hscientific, hpositional⟩ := decimal_form hd hlast
  by_cases he : 'e' ∈ (printed.decimal d).toList
  · exact (hscientific he).head?_ne_minus
  · exact (hpositional he).head?_ne_minus

/-! ### Ranges -/

/-- A number that fits in 32 bits. -/
def int32? (n : Int) : Option Int := if -2 ^ 31 ≤ n ∧ n < 2 ^ 31 then some n else none

/-- How often something is repeated, or where a text is split; that is not negative. -/
def count? (n : Int) : Option Nat := if 0 ≤ n then some n.toNat else none

/-- Two parts of a text, split at a place that is not past its end. -/
def split? (cs : List Char) (place : Nat) : Option (List Char × List Char) :=
  if place ≤ cs.length then some (cs.take place, cs.drop place) else none

/-- The text of a decimal, from its digits and the exponent of the first of them, in integers of 32
bits. There is none if any of them overflows or a count or a place is out of range. -/
def bounded? (digits : List Char) (exponent : Int) : Option (List Char) := do
  let exponent ← int32? exponent
  let length ← int32? digits.length
  let point ← int32? (exponent + 1)
  if length ≤ point ∧ point ≤ 21 then
    let zeros ← count? (← int32? (point - length))
    return digits ++ List.replicate zeros '0'
  else if 0 < point ∧ point ≤ 21 then
    let (whole, fraction) ← split? digits (← count? point)
    return whole ++ '.' :: fraction
  else if -6 < point ∧ point ≤ 0 then
    let zeros ← count? (← int32? (-point))
    return '0' :: '.' :: (List.replicate zeros '0' ++ digits)
  else
    let power ← int32? (point - 1)
    let (first, rest) ← split? digits 1
    return first ++ pointed rest ++
      'e' :: (if power < 0 then '-' else '+') :: Nat.toDigits 10 power.natAbs

theorem int32?_of_le (hl : -400 ≤ e) (hh : e ≤ 400) : int32? e = some e := by
  rw [int32?, if_pos (by omega)]

theorem count?_of_nonneg (h : 0 ≤ e) : count? e = some e.toNat := by
  rw [count?, if_pos h]

theorem split?_of_le (h : n ≤ ds.length) : split? ds n = some (ds.take n, ds.drop n) := by
  rw [split?, if_pos h]

/-- With few digits and a point not far from them nothing goes out of range. -/
theorem bounded?_eq (hne : ds ≠ []) (hlength : ds.length ≤ 17) (hl : -324 < point)
    (hh : point ≤ 309) :
    bounded? ds (point - 1) =
      some (if -6 < point ∧ point ≤ 21 then (printed.positional ds point).toList
        else (printed.scientific ds (point - 1)).toList) := by
  have hpos : 0 < ds.length := List.length_pos_of_ne_nil hne
  have hexponent : int32? (point - 1) = some (point - 1) := int32?_of_le (by omega) (by omega)
  have hcount : int32? (ds.length : Int) = some (ds.length : Int) :=
    int32?_of_le (by omega) (by omega)
  have hpoint : int32? (point - 1 + 1) = some point := by
    rw [sub_add_cancel]
    exact int32?_of_le (by omega) (by omega)
  simp only [bounded?, hexponent, hcount, hpoint, Option.bind_eq_bind, Option.bind_some]
  by_cases hwhole : (ds.length : Int) ≤ point ∧ point ≤ 21
  · rw [if_pos hwhole, if_pos (by omega), toList_positional_of_length_le (by omega) hwhole.1,
      int32?_of_le (by omega) (by omega), Option.bind_some, count?_of_nonneg (by omega)]
    rfl
  rw [if_neg hwhole]
  by_cases hamong : 0 < point ∧ point ≤ 21
  · rw [if_pos hamong, if_pos (by omega), toList_positional_of_lt (by omega) (by omega),
      count?_of_nonneg (by omega), Option.bind_some, split?_of_le (by omega)]
    rfl
  rw [if_neg hamong]
  by_cases hbefore : -6 < point ∧ point ≤ 0
  · rw [if_pos hbefore, if_pos (by omega), toList_positional_of_nonpos hbefore.2,
      int32?_of_le (by omega) (by omega), Option.bind_some, count?_of_nonneg (by omega)]
    rfl
  have hnone : ¬ (-6 < point ∧ point ≤ 21) := by omega
  rw [if_neg hbefore, if_neg hnone, split?_of_le hpos]
  obtain ⟨c, rest, rfl⟩ := List.exists_cons_of_ne_nil hne
  rw [toList_scientific]
  rfl

end Layout

theorem range_bounds :
    (10 : ℚ) ^ (-324 : Int) ≤ 2 ^ (-1074 : Int) / 2 ∧
      (2 : ℚ) ^ 53 * 2 ^ (971 : Int) < 10 ^ (309 : Int) := by
  have h1 : 2 * 2 ^ 1074 ≤ 10 ^ 324 := by decide +kernel
  have h2 : 2 ^ 53 * 2 ^ 971 < 10 ^ 309 := by decide +kernel
  have h1' : 2 * (2 : ℚ) ^ 1074 ≤ 10 ^ 324 := by exact_mod_cast h1
  have h2' : (2 : ℚ) ^ 53 * 2 ^ 971 < 10 ^ 309 := by exact_mod_cast h2
  refine ⟨?_, by exact_mod_cast h2'⟩
  have hb : (0 : ℚ) < 2 ^ 1074 := by positivity
  have ht : (0 : ℚ) < 10 ^ 324 := by positivity
  rw [zpow_neg, zpow_neg, zpow_ofNat, zpow_ofNat, inv_eq_one_div, inv_eq_one_div, div_div,
    div_le_div_iff₀ ht (by positivity), one_mul, one_mul, mul_comm]
  exact h1'

/-- The point of a shortest decimal is not far from its digits: every regular double is between
`10 ^ -324` and `10 ^ 309`. -/
theorem point_bounds (hc : Canonical m q) (hm : m ≠ 0) :
    -324 < (around m q).shortest.point ∧ (around m q).shortest.point ≤ 309 := by
  have hshortest := isShortest_shortest hc hm
  have hd := hshortest.digits_ne_zero hm
  obtain ⟨hlow, hhigh⟩ := ends_of_mem hm hshortest.nearest.mem
  have hgap := gap_le m q
  have hone : (1 : ℚ) ≤ m := by exact_mod_cast Nat.one_le_iff_ne_zero.mpr hm
  have hlt : (m : ℚ) + 1 ≤ 2 ^ 53 := by exact_mod_cast hc.lt
  have hleast : (2 : ℚ) ^ (-1074 : Int) ≤ 2 ^ q :=
    zpow_le_zpow_right₀ (by norm_num) hc.lowest
  have hgreatest : (2 : ℚ) ^ q ≤ 2 ^ (971 : Int) := zpow_le_zpow_right₀ (by norm_num) hc.highest
  have hvalue : (around m q).shortest.value =
      (around m q).shortest.digits * 10 ^ (around m q).shortest.exponent := rfl
  obtain ⟨htiny, hhuge⟩ := range_bounds
  constructor
  · rw [← Decimal.zpow_le_value_iff hd, hvalue]
    nlinarith
  · rw [← not_lt, ← Decimal.zpow_le_value_iff hd, hvalue, not_le]
    have hq : (0 : ℚ) < 2 ^ q := by positivity
    calc _ ≤ (m + 1 / 2) * (2 : ℚ) ^ q := hhigh
      _ ≤ 2 ^ 53 * 2 ^ (971 : Int) := by gcongr; linarith
      _ < 10 ^ (309 : Int) := hhuge

theorem realText_abs (hx : x.magnitude = .finite m q) (hm : m ≠ 0) :
    realText x.abs = Layout.printed.decimal (around m q).shortest := by
  rw [realText_of_regular ((magnitude_abs x).trans hx) hm, negative_abs]
  simp

theorem bounded?_shortest (hc : Canonical m q) (hm : m ≠ 0) :
    Layout.bounded? (Nat.toDigits 10 (around m q).shortest.digits)
        ((around m q).shortest.point - 1) =
      some (Layout.printed.decimal (around m q).shortest).toList := by
  have hlt := (isShortest_shortest hc hm).digits_lt hc hm
  have hlength := (Nat.length_toDigits_le_iff (by norm_num) (by norm_num)).mpr hlt
  obtain ⟨hl, hh⟩ := point_bounds hc hm
  rw [Layout.bounded?_eq Nat.toDigits_ne_nil hlength hl hh, Layout.decimal_printed]
  split <;> rfl

/-- The text of a double that is neither a NaN, an infinity nor a zero has a sign if the double is
negative, and then goes on as that of its absolute value. It has an exponent if that is at least
`10 ^ 21` or less than the double nearest to one millionth, and is positional otherwise. It denotes
the shortest decimal, digit for digit, and in integers of 32 bits nothing on the way to it goes out
of range. -/
theorem realText_layout (x : Double) (hx : x.IsRegular) :
    realText x = (if x.value < 0 then "-" else "") ++ realText x.abs ∧
    ((realText x).toList.head? = some '-' ↔ x.value < 0) ∧ x.abs.value = |x.value| ∧
    Rounds (1 / 10 ^ 6) millionth ∧
    ('e' ∈ (realText x).toList ↔ 10 ^ 21 ≤ |x.value| ∨ |x.value| < millionth.value) ∧
    ('e' ∈ (realText x).toList → Scientific (realText x.abs).toList) ∧
    ('e' ∉ (realText x).toList → Positional (realText x.abs).toList) ∧
    ∃ m q d, x.magnitude = .finite m q ∧ (around m q).IsShortest d ∧
      Numeral.value? (realText x) = some (x.sign * (d.digits * 10 ^ d.exponent)) ∧
      Layout.bounded? (Nat.toDigits 10 d.digits) (d.point - 1) = some (realText x.abs).toList := by
  obtain ⟨m, q, hx, hm⟩ := hx
  have hc := canonical_of_magnitude hx
  have hshortest := isShortest_shortest hc hm
  have hforms := Layout.decimal_form (hshortest.digits_ne_zero hm) hshortest.not_dvd
  obtain ⟨hlow, hhigh⟩ := point_shortest hc hm
  have habs := realText_abs hx hm
  have hvalue := abs_value hx
  have hsigned : realText x = (if x.value < 0 then "-" else "") ++ realText x.abs := by
    rw [habs, realText_of_regular hx hm]
    simp only [value_neg_iff hx hm]
  have hmem : 'e' ∈ (realText x).toList ↔ 'e' ∈ (realText x.abs).toList := by
    rw [hsigned]
    split <;> simp
  refine ⟨hsigned, ?_, value_abs hx, rounds_millionth, ?_, ?_, ?_, m, q, _, hx, hshortest,
    value?_realText hx hm, ?_⟩
  · have hdigit := Layout.head?_decimal (hshortest.digits_ne_zero hm) hshortest.not_dvd
    rw [← habs] at hdigit
    rw [hsigned]
    split <;> simp_all
  · rw [hmem, habs, Layout.e_mem_decimal, hvalue, hlow, not_and_or, not_le, not_le, hhigh, or_comm]
  · rw [hmem, habs]
    exact hforms.1
  · rw [hmem, habs]
    exact hforms.2
  · rw [habs]
    exact bounded?_shortest hc hm

/-- The least in size of the negative doubles without an exponent. -/
theorem realText_layout_millionth :
    (⟨0xBEB0C6F7A0B5ED8D⟩ : Double).IsRegular ∧
      (realText ⟨0xBEB0C6F7A0B5ED8D⟩).toList.head? = some '-' ∧
      'e' ∉ (realText ⟨0xBEB0C6F7A0B5ED8D⟩).toList ∧
      Positional (realText (abs ⟨0xBEB0C6F7A0B5ED8D⟩)).toList := by
  have hm : (⟨0xBEB0C6F7A0B5ED8D⟩ : Double).magnitude = .finite 0x10C6F7A0B5ED8D (-72) := by decide
  have hr : (⟨0xBEB0C6F7A0B5ED8D⟩ : Double).IsRegular := ⟨_, _, hm, by norm_num⟩
  obtain ⟨-, hminus, -, -, hexponent, -, hpositional, -⟩ := realText_layout _ hr
  have hvalue : |(⟨0xBEB0C6F7A0B5ED8D⟩ : Double).value| = millionth.value := by
    rw [abs_value hm, value_millionth]
    norm_num
  have hsmall : millionth.value < 10 ^ 21 := by
    rw [value_millionth]
    norm_num
  have hnone : 'e' ∉ (realText ⟨0xBEB0C6F7A0B5ED8D⟩).toList := by
    rw [hexponent, hvalue]
    exact not_or.mpr ⟨not_le.mpr hsmall, lt_irrefl _⟩
  have hneg := (value_neg_iff hm (by norm_num)).mpr (by decide)
  exact ⟨hr, hminus.mpr hneg, hnone, hpositional hnone⟩

end ConsoleHost
