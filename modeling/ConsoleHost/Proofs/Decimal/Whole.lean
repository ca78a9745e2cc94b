import Mathlib
import ConsoleHost.Host.Operation
import ConsoleHost.Proofs.Decimal.Forms
import ConsoleHost.Proofs.Double.Whole

/-! Whole numbers: the reals printed as digits only are those that are whole, and as far as every
integer is a double their texts are those of integers. -/
namespace ConsoleHost

open ConsoleHost.Double ConsoleHost.Interval

variable {x : Double} {d : Decimal} {m n : Nat} {q : Int} {z : Int}

namespace Numeral

/-- The text of an integer in base ten: a sign if it is negative, and digits, with a zero at their
start only if there is no other digit. -/
inductive BaseTen (z : Int) : List Char → Prop where
  | intro {ds : List Char} (hdigits : Digits ds) (hne : ds ≠ [])
      (hhead : ds.head? = some '0' → ds = ['0']) (hvalue : Nat.ofDigitChars 10 ds 0 = z.natAbs) :
      BaseTen z ((if z < 0 then ['-'] else []) ++ ds)

/-- Digits and nothing else, but perhaps a sign before them. -/
def Plain (cs : List Char) : Prop := ∃ ds, Digits ds ∧ ds ≠ [] ∧ (cs = ds ∨ cs = '-' :: ds)

theorem not_digits_minus (cs : List Char) : ¬ Digits ('-' :: cs) := fun h =>
  absurd (h '-' (by simp)) (by decide)

/-- A sign in front does not matter. -/
theorem plain_sign_iff {cs : List Char} {sign : Prop} [Decidable sign]
    (hhead : cs.head? ≠ some '-') :
    Plain ((if sign then ['-'] else []) ++ cs) ↔ Digits cs ∧ cs ≠ [] := by
  constructor
  · rintro ⟨ds, hds, hne, heq⟩
    split at heq
    · rcases heq with rfl | heq
      · exact absurd hds (not_digits_minus cs)
      · obtain ⟨-, rfl⟩ := List.cons.inj heq
        exact ⟨hds, hne⟩
    · rcases heq with rfl | rfl
      · exact ⟨hds, hne⟩
      · exact absurd rfl hhead
  · rintro ⟨hds, hne⟩
    refine ⟨cs, hds, hne, ?_⟩
    split
    · exact .inr rfl
    · exact .inl rfl

theorem toDigits_mul_pow (hn : n ≠ 0) (k : Nat) :
    Nat.toDigits 10 (n * 10 ^ k) = Nat.toDigits 10 n ++ List.replicate k '0' := by
  induction k with
  | zero => simp
  | succ k ih =>
    have hpos : 0 < n * 10 ^ k := by positivity
    rw [Nat.pow_succ, ← Nat.mul_assoc, Nat.toDigits_of_base_le (by norm_num) (by omega),
      Nat.mul_div_cancel _ (by norm_num), Nat.mul_mod_left, ih, List.replicate_succ',
      List.append_assoc]
    rfl

theorem toList_toString (z : Int) :
    (toString z).toList = (if z < 0 then ['-'] else []) ++ Nat.toDigits 10 z.natAbs := by
  rw [Int.toString_eq_repr, Int.repr_eq_if]
  by_cases hz : 0 ≤ z
  · rw [if_pos hz, if_neg (by omega), show z.toNat = z.natAbs by omega, Nat.toList_repr]
    rfl
  · rw [if_neg hz, if_pos (by omega), show (-z).toNat = z.natAbs by omega, String.toList_append,
      Nat.toList_repr]
    rfl

theorem baseTen_toString (z : Int) : BaseTen z (toString z).toList := by
  rw [toList_toString]
  refine .intro (digits_toDigits _) Nat.toDigits_ne_nil ?_ Nat.ofDigitChars_ten_toDigits
  intro hhead
  by_cases h0 : z.natAbs = 0
  · rw [h0]
    rfl
  · exact absurd hhead (head?_toDigits_ne_zero h0)

end Numeral

open Numeral

namespace Interval

/-- A whole double is a point of the grid of whole numbers, so that no finer grid is needed. -/
theorem IsShortest.exponent_nonneg (h : (around m q).IsShortest d) (hm : m ≠ 0)
    (hn : (m * 2 ^ q : ℚ) = n) : 0 ≤ d.exponent := by
  by_contra hlt
  refine h.coarsest 0 (by omega) n ?_
  have hi := center_mem (q := q) hm
  rwa [center_around, hn, ← mul_one (n : ℚ), ← zpow_zero (10 : ℚ)] at hi

theorem whole_value (h : 0 ≤ d.exponent) : d.value = (d.digits * 10 ^ d.exponent.toNat : Nat) := by
  obtain ⟨k, hk⟩ := Int.eq_ofNat_of_zero_le h
  rw [Decimal.value, hk]
  simp

/-- A whole shortest decimal rounds to its double, and is at most half a place above it. -/
theorem IsShortest.nearest_whole (h : (around m q).IsShortest d) (hc : Canonical m q) (hm : m ≠ 0)
    (hexponent : 0 ≤ d.exponent) :
    Nearest (d.digits * 10 ^ d.exponent.toNat : Nat) m q ∧
      ((d.digits * 10 ^ d.exponent.toNat : Nat) : ℚ) ≤ (m + 1 / 2) * 2 ^ q := by
  have hmem : d.value ∈ around m q := h.nearest.mem
  rw [← whole_value hexponent]
  exact ⟨nearest_of_mem hc hm hmem, (ends_of_mem hm hmem).2⟩

/-- A double is whole if its shortest decimal is. -/
theorem IsShortest.exists_whole (h : (around m q).IsShortest d) (hc : Canonical m q) (hm : m ≠ 0)
    (hexponent : 0 ≤ d.exponent) : ∃ n : Nat, (m * 2 ^ q : ℚ) = n := by
  by_cases hq : 0 ≤ q
  · obtain ⟨k, rfl⟩ := Int.eq_ofNat_of_zero_le hq
    exact ⟨m * 2 ^ k, by simp⟩
  · obtain ⟨hnearest, hhigh⟩ := h.nearest_whole hc hm hexponent
    refine ⟨_, hnearest.eq_of_le ?_⟩
    have hpow : (2 : ℚ) ^ q ≤ 1 := zpow_le_one_of_nonpos₀ (by norm_num) (by omega)
    have hlt : (m : ℚ) + 1 ≤ 2 ^ 53 := by exact_mod_cast hc.lt
    have hle : ((d.digits * 10 ^ d.exponent.toNat : Nat) : ℚ) ≤ (2 ^ 53 : Nat) := by
      push_cast at hhigh ⊢
      nlinarith
    exact_mod_cast hle

theorem exponent_le_one (hc : Canonical m q) (hn : (m * 2 ^ q : ℚ) = n) (hle : n ≤ 2 ^ 53) :
    q ≤ 1 := by
  by_contra hq
  have hm : 2 ^ 52 ≤ m := by
    by_contra hm
    have := hc.normal (by omega)
    omega
  have hm' : (2 : ℚ) ^ 52 ≤ m := by exact_mod_cast hm
  have hpow : (2 : ℚ) ^ (2 : Int) ≤ 2 ^ q := zpow_le_zpow_right₀ (by norm_num) (by omega)
  have hle' : (m * 2 ^ q : ℚ) ≤ 2 ^ 53 := by
    rw [hn]
    exact_mod_cast hle
  norm_num at hpow
  nlinarith

/-- The shortest decimal of a whole double is the double itself, up to `2 ^ 53`. -/
theorem IsShortest.value_eq (h : (around m q).IsShortest d) (hc : Canonical m q) (hm : m ≠ 0)
    (hn : (m * 2 ^ q : ℚ) = n) (hle : n ≤ 2 ^ 53) : d.value = n := by
  have hexponent := h.exponent_nonneg hm hn
  rcases hexponent.eq_or_lt with h0 | hpos
  · -- on the grid of whole numbers none is nearer to the double than itself
    have hself := h.nearest.le n (by
      rw [← h0, zpow_zero, mul_one, ← hn, ← center_around]
      exact center_mem hm)
    rw [center_around, ← Decimal.value, hn, ← h0, zpow_zero, mul_one, sub_self, abs_zero,
      abs_nonpos_iff] at hself
    linarith
  · obtain ⟨hnearest, hhigh⟩ := h.nearest_whole hc hm hexponent
    rw [whole_value hexponent]
    by_cases hsmall : d.digits * 10 ^ d.exponent.toNat ≤ 2 ^ 53
    · rw [← hnearest.eq_of_le hsmall, hn]
    · have hnext : d.digits * 10 ^ d.exponent.toNat ≤ 2 ^ 53 + 1 := by
        have hpow : (2 : ℚ) ^ q ≤ 2 ^ (1 : Int) :=
          zpow_le_zpow_right₀ (by norm_num) (exponent_le_one hc hn hle)
        have hle' : (n : ℚ) ≤ 2 ^ 53 := by exact_mod_cast hle
        have hbound : ((d.digits * 10 ^ d.exponent.toNat : Nat) : ℚ) ≤ 2 ^ 53 + 1 := by
          rw [zpow_one] at hpow
          linarith
        exact_mod_cast hbound
      -- the number after `2 ^ 53` ends in a three, and not in a zero
      obtain ⟨k, hk⟩ : ∃ k : Nat, d.exponent.toNat = k + 1 := ⟨d.exponent.toNat - 1, by omega⟩
      rw [hk, Nat.pow_succ, ← Nat.mul_assoc] at hsmall hnext
      omega

end Interval

namespace Layout

/-- A decimal that is whole has its digits and then zeros. -/
theorem decimal_whole (hd : d.digits ≠ 0) (he : 0 ≤ d.exponent) (hp : d.point ≤ 21) :
    (printed.decimal d).toList = Nat.toDigits 10 (d.digits * 10 ^ d.exponent.toNat) := by
  have hlength := Nat.length_toDigits_pos (b := 10) (n := d.digits)
  have hpoint : d.point - (Nat.toDigits 10 d.digits).length = d.exponent := by
    rw [Decimal.point, add_sub_cancel_left]
  rw [decimal_printed, if_pos (by omega), toList_positional_of_length_le (by omega) (by omega),
    hpoint, toDigits_mul_pow hd]

theorem digits_decimal_iff (hd : d.digits ≠ 0) (hp : d.point ≤ 21) :
    Digits (printed.decimal d).toList ↔ 0 ≤ d.exponent := by
  constructor
  · intro hdigits
    by_contra hneg
    have hlength : ¬ ((Nat.toDigits 10 d.digits).length : Int) ≤ d.point := by
      rw [Decimal.point]
      omega
    by_cases hlow : -6 < d.point
    · have hdot : '.' ∈ (printed.decimal d).toList := by
        rw [decimal_printed, if_pos ⟨hlow, hp⟩]
        by_cases h0 : d.point ≤ 0
        · rw [toList_positional_of_nonpos h0]
          simp
        · rw [toList_positional_of_lt h0 hlength]
          simp
      exact absurd (hdigits _ hdot) (by decide)
    · have he := (e_mem_decimal d).mpr fun h => hlow h.1
      exact absurd (hdigits _ he) (by decide)
  · intro he
    rw [decimal_whole hd he hp]
    exact digits_toDigits _

end Layout

theorem toList_realText (hx : x.magnitude = .finite m q) (hm : m ≠ 0) :
    (realText x).toList = (if x.value < 0 then ['-'] else []) ++
      (Layout.printed.decimal (around m q).shortest).toList := by
  rw [realText_of_regular hx hm, String.toList_append]
  simp only [value_neg_iff hx hm]
  split <;> rfl

theorem center_of_whole (hx : x.magnitude = .finite m q) (hz : x.value = z) :
    (m * 2 ^ q : ℚ) = z.natAbs := by
  rw [← abs_value hx, hz, Nat.cast_natAbs, Int.cast_abs]

/-- As far as every integer is a double, whole doubles are printed as integers are. -/
theorem realText_of_whole (hx : x.IsFinite) (hz : x.value = z) (hle : z.natAbs ≤ 2 ^ 53) :
    realText x = toString z := by
  rcases hx.isZero_or_isRegular with h0 | ⟨m, q, hx, hm⟩
  · rw [realText_of_zero h0]
    rw [value_of_isZero h0] at hz
    obtain rfl : z = 0 := by exact_mod_cast hz.symm
    rfl
  · have hc := canonical_of_magnitude hx
    have hshortest := isShortest_shortest hc hm
    have hd := hshortest.digits_ne_zero hm
    have hn := center_of_whole hx hz
    have hexponent := hshortest.exponent_nonneg hm hn
    have hdigits := hshortest.value_eq hc hm hn hle
    rw [whole_value hexponent, Nat.cast_inj] at hdigits
    have hpoint : (around m q).shortest.point ≤ 21 := by
      rw [← not_lt, (point_shortest hc hm).2, hn, not_le]
      exact_mod_cast hle.trans_lt (by norm_num)
    rw [← String.toList_inj, toList_realText hx hm, toList_toString,
      Layout.decimal_whole hd hexponent hpoint, hdigits, hz]
    simp only [Int.cast_lt_zero]

theorem plain_realText_iff (hx : x.IsFinite) (hlt : |x.value| < 10 ^ 21) :
    Plain (realText x).toList ↔ ∃ z : Int, x.value = z := by
  rcases hx.isZero_or_isRegular with h0 | ⟨m, q, hx, hm⟩
  · rw [realText_of_zero h0, value_of_isZero h0]
    exact iff_of_true ⟨['0'], digits_zeros 1, by simp, .inl rfl⟩ ⟨0, by simp⟩
  · have hc := canonical_of_magnitude hx
    have hshortest := isShortest_shortest hc hm
    have hd := hshortest.digits_ne_zero hm
    have hpoint : (around m q).shortest.point ≤ 21 := by
      rwa [← not_lt, (point_shortest hc hm).2, ← abs_value hx, not_le]
    rw [toList_realText hx hm, plain_sign_iff (Layout.head?_decimal hd hshortest.not_dvd),
      Layout.digits_decimal_iff hd hpoint]
    constructor
    · rintro ⟨hexponent, -⟩
      obtain ⟨n, hn⟩ := hshortest.exists_whole hc hm hexponent
      rw [value_of_magnitude hx, hn, sign]
      split
      · exact ⟨-n, by simp⟩
      · exact ⟨n, by simp⟩
    · rintro ⟨z, hz⟩
      have hexponent := hshortest.exponent_nonneg hm (center_of_whole hx hz)
      refine ⟨hexponent, ?_⟩
      rw [Layout.decimal_whole hd hexponent hpoint]
      exact Nat.toDigits_ne_nil

theorem natAbs_toInt_lt (v : Int32) : v.toInt.natAbs < 2 ^ 53 := by
  have hlow := v.le_toInt
  have hhigh := v.toInt_lt
  omega

/-- The text of an integer, and of the double that it is converted to. -/
theorem realText_ofInt (v : Int32) : realText (ofInt v.toInt) = intText v := by
  obtain ⟨hfinite, hvalue⟩ := value_ofInt (natAbs_toInt_lt v)
  exact realText_of_whole hfinite hvalue (natAbs_toInt_lt v).le

/-- Every integer up to `2 ^ 53` in size is a double, and that is printed in base ten as the integer
is. So every integer of a guest is printed alike as it is and as a real, also in a field.
Of the doubles below `10 ^ 21` in size just those that are whole are printed as digits only. -/
theorem realText_whole :
    (∀ z : Int, z.natAbs ≤ 2 ^ 53 → (∃ x : Double, x.IsFinite ∧ x.value = z) ∧
      ∀ x : Double, x.IsFinite → x.value = z → BaseTen z (realText x).toList) ∧
    (∀ v : Int32, (ofInt v.toInt).IsFinite ∧ (ofInt v.toInt).value = v.toInt ∧
      realText (ofInt v.toInt) = intText v ∧
      ∀ width, (Host.Operation.printRealPad (ofInt v.toInt) width).perform =
        (Host.Operation.printIntPad v width).perform) ∧
    ∀ x : Double, x.IsFinite → |x.value| < 10 ^ 21 →
      (Plain (realText x).toList ↔ ∃ z : Int, x.value = z) := by
  refine ⟨fun z hz => ⟨exists_value_eq hz, fun x hx hv => ?_⟩, fun v => ?_,
    fun x => plain_realText_iff⟩
  · rw [realText_of_whole hx hv hz]
    exact baseTen_toString z
  · obtain ⟨hfinite, hvalue⟩ := value_ofInt (natAbs_toInt_lt v)
    refine ⟨hfinite, hvalue, realText_ofInt v, fun width => ?_⟩
    simp only [Host.Operation.perform, Host.printRealPad, Host.printIntPad, realText_ofInt]

/-- `2 ^ 53`, after which not every integer is a double, and the double after `10 ^ 20`, which is
printed as digits that are not all its own. -/
theorem realText_whole_last :
    ((2 : Int) ^ 53).natAbs ≤ 2 ^ 53 ∧ (⟨0x4340000000000000⟩ : Double).IsFinite ∧
      (⟨0x4340000000000000⟩ : Double).value = ((2 ^ 53 : Int) : ℚ) ∧
      BaseTen (2 ^ 53) (realText ⟨0x4340000000000000⟩).toList ∧
      (⟨0x4415AF1D78B58C41⟩ : Double).IsFinite ∧ |(⟨0x4415AF1D78B58C41⟩ : Double).value| < 10 ^ 21 ∧
      Plain (realText ⟨0x4415AF1D78B58C41⟩).toList := by
  have hlast : (⟨0x4340000000000000⟩ : Double).magnitude = .finite (2 ^ 52) 1 := by decide
  have hnext : (⟨0x4415AF1D78B58C41⟩ : Double).magnitude = .finite 6103515625000001 14 := by decide
  have hvalue : (⟨0x4340000000000000⟩ : Double).value = ((2 ^ 53 : Int) : ℚ) := by
    rw [value_of_magnitude hlast, sign, if_neg (by decide)]
    norm_num
  have hwhole : (⟨0x4415AF1D78B58C41⟩ : Double).value = (100000000000000016384 : Int) := by
    rw [value_of_magnitude hnext, sign, if_neg (by decide)]
    norm_num
  have hlt : |(⟨0x4415AF1D78B58C41⟩ : Double).value| < 10 ^ 21 := by
    rw [hwhole]
    norm_num
  exact ⟨by decide, ⟨_, _, hlast⟩, hvalue,
    (realText_whole.1 (2 ^ 53) (by decide)).2 _ ⟨_, _, hlast⟩ hvalue, ⟨_, _, hnext⟩, hlt,
    (realText_whole.2.2 _ ⟨_, _, hnext⟩ hlt).mpr ⟨_, hwhole⟩⟩

end ConsoleHost
