import ConsoleHost.Proofs.Decimal.RoundTrip
import Mathlib.Data.Nat.Digits.Lemmas

/-! The text of a real is the shortest: no decimal of fewer digits reads back as that real, and of
those with as many digits none that reads back is nearer to it. -/
namespace ConsoleHost

open ConsoleHost.Double ConsoleHost.Interval

/-- The number of digits of a decimal, without the zeros before the first and after the last of the
others. -/
def Significant (v : ℚ) (k : Nat) : Prop :=
  ∃ (c : Nat) (p : Int), |v| = c * 10 ^ p ∧ (10 ∣ c → c = 0) ∧ (Nat.digits 10 c).length = k

/-- Digits without zeros at either end are those of one decimal only. -/
theorem Significant.unique {v : ℚ} {j k : Nat} (hj : Significant v j) (hk : Significant v k) :
    j = k := by
  obtain ⟨a, s, ha, hta, rfl⟩ := hj
  obtain ⟨b, t, hb, htb, rfl⟩ := hk
  have hzero {n : Nat} {r : Int} (h : |v| = n * 10 ^ r) : n = 0 ↔ v = 0 := by
    have hten : (10 : ℚ) ^ r ≠ 0 := by positivity
    rw [← abs_eq_zero, h, mul_eq_zero, or_iff_left hten, Nat.cast_eq_zero]
  have hlift {a b : Nat} {s t : Int} (ha : |v| = a * 10 ^ s) (hb : |v| = b * 10 ^ t)
      (hta : 10 ∣ a → a = 0) (hst : s ≤ t) : a = b := by
    obtain ⟨n, rfl⟩ : ∃ n : Nat, t = s + n := ⟨(t - s).toNat, by omega⟩
    have hten : (10 : ℚ) ^ s ≠ 0 := by positivity
    have hab : a = b * 10 ^ n := by
      rw [hb, zpow_add₀ (by norm_num), zpow_natCast, mul_comm ((10 : ℚ) ^ s), ← mul_assoc] at ha
      exact_mod_cast (mul_right_cancel₀ hten ha).symm
    cases n with
    | zero => simpa using hab
    | succ n =>
      have ha0 := hta ⟨b * 10 ^ n, by rw [hab, pow_succ]; ring⟩
      rw [ha0, (hzero hb).mpr ((hzero ha).mp ha0)]
  rcases le_total s t with hst | hst
  · rw [hlift ha hb hta hst]
  · rw [hlift hb ha htb hst]

namespace Interval

variable {i : Interval} {v w : ℚ} {m c k : Nat} {p q : Int} {d : Decimal}

/-- A member below a power of ten keeps the shortest decimal below it, if that power is that of a
coarser grid. -/
theorem IsShortest.value_lt (h : i.IsShortest d) (hw : w ∈ i) (hp : d.exponent < p)
    (hlt : w < 10 ^ p) : d.value < 10 ^ p := by
  by_contra hge
  exact h.coarsest p hp 1 (by
    rw [Nat.cast_one, one_mul]
    exact mem_of_between hw h.nearest.mem hlt.le (not_lt.mp hge))

theorem mul_zpow_lt (hc : c < 10 ^ k) (p : Int) : (c * 10 ^ p : ℚ) < 10 ^ (k + p) := by
  have hc' : (c : ℚ) < 10 ^ k := by exact_mod_cast hc
  rw [zpow_add₀ (by norm_num), zpow_natCast]
  exact mul_lt_mul_of_pos_right hc' (by positivity)

/-- No member has fewer digits. -/
theorem IsShortest.fewest (h : (around m q).IsShortest d) (hm : m ≠ 0)
    (hw : (c * 10 ^ p : ℚ) ∈ around m q) (hc : c < 10 ^ k) : d.digits < 10 ^ k := by
  have hfine : p ≤ d.exponent := by
    by_contra hp
    exact h.coarsest p (by omega) c hw
  have hk : k ≠ 0 := by
    rintro rfl
    have hv := pos_of_mem hm hw
    simp [show c = 0 by omega] at hv
  have hlt : (c * 10 ^ p : ℚ) < 10 ^ (k + d.exponent) :=
    (mul_zpow_lt hc p).trans_le (zpow_le_zpow_right₀ (by norm_num) (by omega))
  have hd := h.value_lt hw (by omega) hlt
  rw [Decimal.value, zpow_add₀ (by norm_num), zpow_natCast,
    mul_lt_mul_iff_left₀ (by positivity)] at hd
  exact_mod_cast hd

/-! ### One digit

Near the least double of all, intervals are so wide that they hold one-digit decimals to both sides
of a power of ten. -/

/-- `10 ^ -323` is a little more than twice the least double. -/
theorem least_bounds :
    2 * (2 : ℚ) ^ (-1074 : Int) ≤ 10 ^ (-323 : Int) ∧
      10 * (10 : ℚ) ^ (-323 : Int) ≤ 21 * 2 ^ (-1074 : Int) := by
  have h1 : 2 * 10 ^ 323 ≤ 2 ^ 1074 := by decide +kernel
  have h2 : 10 * 2 ^ 1074 ≤ 21 * 10 ^ 323 := by decide +kernel
  have h1' : 2 * (10 : ℚ) ^ 323 ≤ 2 ^ 1074 := by exact_mod_cast h1
  have h2' : 10 * (2 : ℚ) ^ 1074 ≤ 21 * 10 ^ 323 := by exact_mod_cast h2
  have hb : (0 : ℚ) < 2 ^ 1074 := by positivity
  have ht : (0 : ℚ) < 10 ^ 323 := by positivity
  rw [zpow_neg, zpow_neg, zpow_ofNat, zpow_ofNat, ← div_eq_mul_inv, ← div_eq_mul_inv,
    ← div_eq_mul_inv, inv_eq_one_div, div_le_div_iff₀ hb ht, div_le_div_iff₀ ht hb, one_mul]
  exact ⟨h1', h2'⟩

/-- A power of ten above a double, with a member a tenth below it, is nearer than that member. -/
theorem nineteen_le_of_mem (hc : Canonical m q) (hm : m ≠ 0) (hw : w ∈ around m q)
    (hp : (10 ^ p : ℚ) ∈ around m q) (hwp : w ≤ 9 / 10 * 10 ^ p) (hlt : (m * 2 ^ q : ℚ) < 10 ^ p) :
    19 / 10 * 10 ^ p ≤ 2 * (m * 2 ^ q : ℚ) := by
  obtain ⟨hl, -⟩ := ends_of_mem hm hw
  obtain ⟨-, hh⟩ := ends_of_mem hm hp
  have hg := gap_le m q
  have hu : (0 : ℚ) < 2 ^ q := by positivity
  have hsmall : m ≤ 9 := by
    by_contra hbig
    have hbig' : (10 : ℚ) ≤ m := by exact_mod_cast not_le.mp hbig
    nlinarith
  have hq : q = -1074 := hc.normal (by omega)
  have hm1 : (1 : ℚ) ≤ m := by exact_mod_cast Nat.one_le_iff_ne_zero.mpr hm
  have hm9 : (m : ℚ) ≤ 9 := by exact_mod_cast hsmall
  obtain ⟨hlo, hhi⟩ := least_bounds
  rw [hq] at hl hh hu hlt ⊢
  have hten : (10 : ℚ) ≠ 0 := by norm_num
  rcases lt_trichotomy p (-323) with hp' | hp' | hp'
  · have hle : (10 : ℚ) ^ p ≤ 10 ^ (-323 - 1 : Int) := zpow_le_zpow_right₀ (by norm_num) (by omega)
    rw [zpow_sub_one₀ hten] at hle
    nlinarith
  · rw [hp'] at hh ⊢
    have hm2 : 2 ≤ m := by
      by_contra h1
      have hm1' : (m : ℚ) ≤ 1 := by exact_mod_cast (by omega : m ≤ 1)
      nlinarith
    have hm2' : (2 : ℚ) ≤ m := by exact_mod_cast hm2
    nlinarith
  · have hle : (10 : ℚ) ^ (-323 + 1 : Int) ≤ 10 ^ p := zpow_le_zpow_right₀ (by norm_num) (by omega)
    rw [zpow_add_one₀ hten] at hle
    nlinarith

/-- A member on a finer grid with as many digits as the shortest decimal has only one, and is below
the power of ten of the shortest decimal. -/
theorem IsShortest.one_of_finer (h : (around m q).IsShortest d) (hm : m ≠ 0)
    (hw : (c * 10 ^ p : ℚ) ∈ around m q) (hck : c < 10 ^ k) (hdk : 10 ^ k ≤ 10 * d.digits)
    (hp : p < d.exponent) :
    k = 1 ∧ (c * 10 ^ p : ℚ) < 10 ^ d.exponent ∧ (10 ^ d.exponent : ℚ) ≤ d.value := by
  have hlt : (c * 10 ^ p : ℚ) < 10 ^ (k + d.exponent - 1) :=
    (mul_zpow_lt hck p).trans_le (zpow_le_zpow_right₀ (by norm_num) (by omega))
  have hge : (10 : ℚ) ^ (k + d.exponent - 1) ≤ d.value := by
    have hdk' : (10 : ℚ) ^ k ≤ 10 * d.digits := by exact_mod_cast hdk
    have hten : (0 : ℚ) < 10 ^ d.exponent := by positivity
    rw [zpow_sub_one₀ (by norm_num), zpow_add₀ (by norm_num), zpow_natCast, Decimal.value]
    nlinarith
  have hk : k ≤ 1 := by
    by_contra hk
    exact absurd (h.value_lt hw (by omega) hlt) (not_lt.mpr hge)
  have hk1 : k = 1 := by
    have hv := pos_of_mem hm hw
    by_contra hk1
    simp [show c = 0 by rw [show k = 0 by omega] at hck; omega] at hv
  rw [hk1, show ((1 : Nat) : Int) + d.exponent - 1 = d.exponent by omega] at hlt hge
  exact ⟨hk1, hlt, hge⟩

/-- A power of ten in the interval is nearer to the middle than the one-digit members of finer
grids that are below it. -/
theorem zpow_closer {e : Int} (hc : Canonical m q) (hm : m ≠ 0)
    (hw : (c * 10 ^ p : ℚ) ∈ around m q) (hpow : (10 ^ e : ℚ) ∈ around m q) (hc9 : c ≤ 9)
    (hp : p < e) (hlt : (c * 10 ^ p : ℚ) < 10 ^ e) :
    |(m * 2 ^ q : ℚ) - 10 ^ e| ≤ |(m * 2 ^ q : ℚ) - c * 10 ^ p| := by
  rcases le_or_gt (10 ^ e : ℚ) (m * 2 ^ q) with hle | hgt
  · rw [abs_of_nonneg (by linarith), abs_of_nonneg (by linarith)]
    linarith
  · have hwp : (c * 10 ^ p : ℚ) ≤ 9 / 10 * 10 ^ e := by
      have hc9' : (c : ℚ) ≤ 9 := by exact_mod_cast hc9
      have hle : (10 : ℚ) ^ p ≤ 10 ^ (e - 1) := zpow_le_zpow_right₀ (by norm_num) (by omega)
      rw [zpow_sub_one₀ (by norm_num)] at hle
      have hten : (0 : ℚ) < 10 ^ p := by positivity
      nlinarith
    have hmid := nineteen_le_of_mem hc hm hw hpow hwp hgt
    rw [abs_of_neg (by linarith), abs_of_nonneg (by linarith)]
    linarith

/-- No member with as many digits is nearer to the middle. -/
theorem IsShortest.closest (h : (around m q).IsShortest d) (hc : Canonical m q) (hm : m ≠ 0)
    (hw : (c * 10 ^ p : ℚ) ∈ around m q) (hck : c < 10 ^ k) (hdk : 10 ^ k ≤ 10 * d.digits) :
    |(m * 2 ^ q : ℚ) - d.value| ≤ |(m * 2 ^ q : ℚ) - c * 10 ^ p| := by
  have hnear := h.nearest.le
  rw [center_around] at hnear
  rcases lt_trichotomy p d.exponent with hp | rfl | hp
  · -- the power of ten between the two is a member on the grid of the shortest decimal
    obtain ⟨rfl, hlt, hge⟩ := h.one_of_finer hm hw hck hdk hp
    have hpow : (10 ^ d.exponent : ℚ) ∈ around m q := mem_of_between hw h.nearest.mem hlt.le hge
    have hone := hnear 1 (by rwa [Nat.cast_one, one_mul])
    rw [Nat.cast_one, one_mul] at hone
    exact hone.trans (zpow_closer hc hm hw hpow (by omega) hp hlt)
  · exact hnear c hw
  · exact absurd hw (h.coarsest p hp c)

end Interval

/-- The text of a regular double has from one to seventeen significant digits; no rational of fewer
digits rounds to the double, and of those of as many digits none that does is nearer to it. -/
theorem realText_shortest (x : Double) (hx : x.IsRegular) :
    ∃ v k, Numeral.value? (realText x) = some v ∧ (∀ j, Significant v j ↔ j = k) ∧
      1 ≤ k ∧ k ≤ 17 ∧ (∀ w j, Significant w j → Rounds w x → k ≤ j) ∧
      ∀ w, Significant w k → Rounds w x → |x.value - v| ≤ |x.value - w| := by
  obtain ⟨m, q, hx, hm⟩ := hx
  have hc := canonical_of_magnitude hx
  have h := isShortest_shortest hc hm
  have hpos := shortest_value_pos hc hm
  have hne := h.digits_ne_zero hm
  have hsig : Significant (x.sign * (around m q).shortest.value)
      (Nat.digits 10 (around m q).shortest.digits).length :=
    ⟨_, _, by rw [abs_sign_mul, abs_of_pos hpos, Decimal.value], fun hd => absurd hd h.not_dvd, rfl⟩
  refine ⟨_, _, value?_realText hx hm, fun j => ⟨fun hj => hj.unique hsig, fun hj => hj ▸ hsig⟩,
    ?_, ?_, ?_, ?_⟩
  · exact List.length_pos_of_ne_nil (Nat.digits_ne_nil_iff_ne_zero.mpr hne)
  · rw [Nat.digits_length_le_iff (by norm_num)]
    exact h.digits_lt hc hm
  · rintro w j ⟨c, p, hw, -, rfl⟩ hr
    rw [rounds_iff hx hm, hw] at hr
    rw [Nat.digits_length_le_iff (by norm_num)]
    exact h.fewest hm hr.2 (Nat.lt_base_pow_length_digits (by norm_num))
  · rintro w ⟨c, p, hw, -, hk⟩ hr
    rw [rounds_iff hx hm] at hr
    have hclose := h.closest hc hm (hw ▸ hr.2)
      (Nat.lt_base_pow_length_digits (by norm_num : 1 < 10))
      (hk ▸ Nat.base_pow_length_digits_le 10 _ (by norm_num) hne)
    have hsub (u : ℚ) : |x.sign * (m * 2 ^ q) - x.sign * u| = |m * 2 ^ q - u| := by
      rw [← mul_sub, abs_sign_mul]
    rw [value, hx, ← sign_mul_abs hr.1, hw]
    simpa only [hsub] using hclose

/-- Twice the least double, in whose interval `9e-324` is on a finer grid than `1e-323`. -/
theorem realText_shortest_two :
    (⟨2⟩ : Double).IsRegular ∧
      ∃ v k, Numeral.value? (realText ⟨2⟩) = some v ∧ (∀ j, Significant v j ↔ j = k) ∧
        1 ≤ k ∧ k ≤ 17 ∧ (∀ w j, Significant w j → Rounds w ⟨2⟩ → k ≤ j) ∧
        ∀ w, Significant w k → Rounds w ⟨2⟩ →
          |(⟨2⟩ : Double).value - v| ≤ |(⟨2⟩ : Double).value - w| := by
  have hr : (⟨2⟩ : Double).IsRegular := ⟨2, -1074, by decide, by decide⟩
  exact ⟨hr, realText_shortest ⟨2⟩ hr⟩

end ConsoleHost
