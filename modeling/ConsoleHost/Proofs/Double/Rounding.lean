import ConsoleHost.Double.Basic
import Mathlib.Algebra.Order.Field.Power
import Mathlib.Data.Rat.Cast.Order
import Mathlib.Tactic.FieldSimp
import Mathlib.Tactic.Linarith
import Mathlib.Tactic.NormNum
import Mathlib.Tactic.Positivity
import Mathlib.Tactic.Ring

/-! Rounding to the nearest double, ties to even: at most one double is what a rational rounds to. -/
namespace ConsoleHost.Double

/-- The sign as a factor. -/
def sign (x : Double) : ℚ := if x.negative then -1 else 1

/-- What a finite double is worth. -/
def value (x : Double) : ℚ :=
  match x.magnitude with
  | .finite m q => x.sign * (m * 2 ^ q)
  | _ => 0

/-- Finite and not zero. -/
def IsRegular (x : Double) : Prop := ∃ m q, x.magnitude = .finite m q ∧ m ≠ 0

def IsZero (x : Double) : Prop := ∃ q, x.magnitude = .finite 0 q

/-- The significands and exponents of doubles: there is a leading one unless the exponent is the
lowest. -/
structure Canonical (m : Nat) (q : Int) : Prop where
  lt : m < 2 ^ 53
  lowest : -1074 ≤ q
  highest : q ≤ 971
  normal : m < 2 ^ 52 → q = -1074

/-- No number of at most 53 binary digits, none of them below `2 ^ -1074`, is nearer to `v` than
`m * 2 ^ q`, and one that is as near leaves it the choice only if `m` is even. Exponents have no
upper bound here, so that what would follow the greatest double counts as well. -/
def Nearest (v : ℚ) (m : Nat) (q : Int) : Prop :=
  ∀ (n : Nat) (p : Int), n < 2 ^ 53 → -1074 ≤ p →
    |v - m * 2 ^ q| ≤ |v - n * 2 ^ p| ∧
      (|v - m * 2 ^ q| = |v - n * 2 ^ p| → (n * 2 ^ p : ℚ) = m * 2 ^ q ∨ Even m)

/-- Half a unit above the greatest double: from here on rationals round to an infinity. -/
def overflow : ℚ := (2 ^ 54 - 1) * 2 ^ (970 : Int)

/-- The double that a rational rounds to. -/
def Rounds (v : ℚ) (x : Double) : Prop :=
  (x.negative = true ↔ v < 0) ∧
    match x.magnitude with
    | .nan => False
    | .infinite => overflow ≤ |v|
    | .finite m q => Nearest |v| m q

variable {x y : Double} {v : ℚ} {m n : Nat} {p q : Int}

theorem isNaN_iff (x : Double) : x.isNaN = true ↔ x.magnitude = .nan := beq_iff_eq

/-- Every double is of one of four kinds. -/
theorem kind_cases (x : Double) :
    x.magnitude = .nan ∨ x.magnitude = .infinite ∨ x.IsZero ∨ x.IsRegular := by
  cases h : x.magnitude with
  | nan => exact Or.inl rfl
  | infinite => exact Or.inr (Or.inl rfl)
  | finite m q =>
    by_cases hm : m = 0
    · exact Or.inr (Or.inr (Or.inl ⟨q, hm ▸ h⟩))
    · exact Or.inr (Or.inr (Or.inr ⟨m, q, h, hm⟩))

theorem abs_sign_mul (x : Double) (v : ℚ) : |x.sign * v| = |v| := by
  unfold sign
  split <;> simp

theorem sign_mul_neg_iff (x : Double) (hv : 0 < v) : x.sign * v < 0 ↔ x.negative = true := by
  unfold sign
  split
  · simp_all
  · simp_all
    exact hv.le

/-- A rational with the sign of a double is that sign times its size. -/
theorem sign_mul_abs (h : x.negative = true ↔ v < 0) : x.sign * |v| = v := by
  unfold sign
  split
  · rw [abs_of_neg (h.mp ‹_›)]
    ring
  · rw [abs_of_nonneg (not_lt.mp (mt h.mpr ‹_›)), one_mul]

theorem canonical_of_magnitude (h : x.magnitude = .finite m q) : Canonical m q := by
  have hf := x.fraction_lt
  have he := x.exponentField_lt
  unfold magnitude at h
  unfold leadingOne at *
  split at h
  · split at h <;> cases h
  · split at h
    · cases h
      exact ⟨by omega, by omega, by omega, fun _ => rfl⟩
    · cases h
      exact ⟨by omega, by omega, by omega, by omega⟩

/-- The bits of a double are its sign, its exponent and its fraction. -/
theorem toNat_bits (x : Double) :
    x.bits.toNat =
      (if x.negative then signWeight else 0) + x.exponentField * leadingOne + x.fraction := by
  have h := x.bits.toNat_lt
  simp only [negative, exponentField, fraction, signWeight, leadingOne, beq_iff_eq]
  split <;> omega

theorem ext_fields (hs : x.negative = y.negative) (he : x.exponentField = y.exponentField)
    (hf : x.fraction = y.fraction) : x = y := by
  have h : x.bits.toNat = y.bits.toNat := by rw [toNat_bits x, toNat_bits y, hs, he, hf]
  cases x
  cases y
  exact congrArg Double.mk (UInt64.toNat_inj.mp h)

/-- Sign and magnitude determine every double that is a number. -/
theorem ext_magnitude (hs : x.negative = y.negative) (hm : x.magnitude = y.magnitude)
    (hn : x.magnitude ≠ .nan) : x = y := by
  have hx := x.fraction_lt
  have hy := y.fraction_lt
  unfold magnitude leadingOne at *
  split at hm <;> split at hm <;> (try split at hm) <;> (try split at hm) <;> simp_all
  all_goals apply ext_fields hs <;> omega

/-! ### Which of two numbers is nearer -/

theorem abs_sub_le_iff_of_lt {a b : ℚ} (h : a < b) : |v - a| ≤ |v - b| ↔ v ≤ (a + b) / 2 := by
  rcases abs_cases (v - a) with ⟨h1, _⟩ | ⟨h1, _⟩ <;>
    rcases abs_cases (v - b) with ⟨h2, _⟩ | ⟨h2, _⟩ <;> rw [h1, h2] <;> constructor <;> intro <;>
    linarith

theorem abs_sub_le_iff_of_gt {a b : ℚ} (h : b < a) : |v - a| ≤ |v - b| ↔ (a + b) / 2 ≤ v := by
  rcases abs_cases (v - a) with ⟨h1, _⟩ | ⟨h1, _⟩ <;>
    rcases abs_cases (v - b) with ⟨h2, _⟩ | ⟨h2, _⟩ <;> rw [h1, h2] <;> constructor <;> intro <;>
    linarith

/-- Two numbers are equally near only to what lies in the middle. -/
theorem abs_sub_eq_iff_of_ne {a b : ℚ} (h : a ≠ b) : |v - a| = |v - b| ↔ v = (a + b) / 2 := by
  rcases lt_or_gt_of_ne h with h | h
  · rw [le_antisymm_iff, le_antisymm_iff, abs_sub_le_iff_of_lt h, abs_sub_le_iff_of_gt h,
      add_comm b a]
  · rw [le_antisymm_iff, le_antisymm_iff, abs_sub_le_iff_of_gt h, abs_sub_le_iff_of_lt h,
      add_comm b a, and_comm]

/-! ### The numbers next to a double -/

/-- With a lower exponent there is no number of the grid above the first one of an exponent. -/
theorem le_of_exponent_lt (hn : n < 2 ^ 53) (hpq : p < q) :
    (n * 2 ^ p : ℚ) ≤ (2 ^ 53 - 1) * 2 ^ (q - 1) := by
  have hn' : (n : ℚ) ≤ 2 ^ 53 - 1 := by
    have : n + 1 ≤ 2 ^ 53 := hn
    have : (n : ℚ) + 1 ≤ 2 ^ 53 := by exact_mod_cast this
    linarith
  have hp : (2 : ℚ) ^ p ≤ 2 ^ (q - 1) := zpow_le_zpow_right₀ (by norm_num) (by omega)
  exact mul_le_mul hn' hp (by positivity) (by norm_num)

theorem two_zpow_pred (q : Int) : (2 : ℚ) ^ q = 2 * 2 ^ (q - 1) := by
  rw [zpow_sub_one₀ two_ne_zero]
  ring

theorem lt_of_exponent_lt (hc : Canonical m q) (hn : n < 2 ^ 53) (hp : -1074 ≤ p) (hpq : p < q) :
    (n * 2 ^ p : ℚ) < m * 2 ^ q := by
  have hm : 2 ^ 52 ≤ m := by
    by_contra hm
    have := hc.normal (by omega)
    omega
  have hm' : (2 : ℚ) ^ 52 ≤ m := by exact_mod_cast hm
  have hq : (0 : ℚ) < 2 ^ (q - 1) := by positivity
  have hle := le_of_exponent_lt hn hpq
  rw [two_zpow_pred q]
  nlinarith

/-- Numbers with the exponent of a double or a higher one are whole multiples of its unit. -/
theorem exists_multiple (n : Nat) (hpq : q ≤ p) : ∃ k : Nat, (n * 2 ^ p : ℚ) = k * 2 ^ q := by
  obtain ⟨j, rfl⟩ : ∃ j : Nat, p = q + j := ⟨(p - q).toNat, by omega⟩
  refine ⟨n * 2 ^ j, ?_⟩
  rw [zpow_add₀ two_ne_zero, zpow_natCast]
  push_cast
  ring

/-- A number of the grid above a double is at least a whole unit above it. -/
theorem succ_le_of_lt (hc : Canonical m q) (hn : n < 2 ^ 53) (hp : -1074 ≤ p)
    (hlt : (m * 2 ^ q : ℚ) < n * 2 ^ p) : ((m + 1) * 2 ^ q : ℚ) ≤ n * 2 ^ p := by
  by_cases hpq : q ≤ p
  · obtain ⟨k, hk⟩ := exists_multiple n hpq
    have hq : (0 : ℚ) < 2 ^ q := by positivity
    rw [hk] at hlt ⊢
    have : m < k := by exact_mod_cast lt_of_mul_lt_mul_right hlt hq.le
    exact mul_le_mul_of_nonneg_right (by exact_mod_cast this) hq.le
  · exact absurd hlt (lt_of_exponent_lt hc hn hp (by omega)).not_gt

/-- The number a whole unit above a double is on the grid. -/
theorem exists_succ (hc : Canonical m q) :
    ∃ (n : Nat) (p : Int), n < 2 ^ 53 ∧ -1074 ≤ p ∧ (n * 2 ^ p : ℚ) = (m + 1) * 2 ^ q := by
  have hl := hc.lowest
  by_cases hm : m + 1 < 2 ^ 53
  · exact ⟨m + 1, q, hm, hl, by push_cast; ring⟩
  · have he : m + 1 = 2 ^ 53 := by have := hc.lt; omega
    have he' : (m + 1 : ℚ) = 2 ^ 53 := by exact_mod_cast he
    refine ⟨2 ^ 52, q + 1, by norm_num, by omega, ?_⟩
    rw [he', zpow_add_one₀ two_ne_zero]
    push_cast
    ring

/-- What rounds to a double is at most half a unit above it, and less if its significand is odd. -/
theorem Nearest.le_half (h : Nearest v m q) (hc : Canonical m q) :
    v ≤ (m + 1 / 2) * 2 ^ q ∧ (¬ Even m → v < (m + 1 / 2) * 2 ^ q) := by
  obtain ⟨n, p, hn, hp, he⟩ := exists_succ hc
  have hq : (0 : ℚ) < 2 ^ q := by positivity
  have hlt : (m * 2 ^ q : ℚ) < (m + 1) * 2 ^ q := by linarith
  have hmid : (m * 2 ^ q + (m + 1) * 2 ^ q : ℚ) / 2 = (m + 1 / 2) * 2 ^ q := by ring
  obtain ⟨hle, htie⟩ := h n p hn hp
  rw [he] at hle htie
  rw [abs_sub_le_iff_of_lt hlt, hmid] at hle
  refine ⟨hle, fun hodd => lt_of_le_of_ne hle fun hv => ?_⟩
  rw [abs_sub_eq_iff_of_ne hlt.ne, hmid] at htie
  exact (htie hv).elim hlt.ne' hodd

theorem Canonical.injective (hm : Canonical m q) (hn : Canonical n p)
    (h : (m * 2 ^ q : ℚ) = n * 2 ^ p) : m = n ∧ q = p := by
  rcases lt_trichotomy q p with hlt | rfl | hlt
  · exact absurd h (lt_of_exponent_lt hn hm.lt hm.lowest hlt).ne
  · exact ⟨by exact_mod_cast mul_right_cancel₀ (by positivity : (2 : ℚ) ^ q ≠ 0) h, rfl⟩
  · exact absurd h (lt_of_exponent_lt hm hn.lt hn.lowest hlt).ne'

/-- Of two doubles that are nearest to a rational neither is above the other. -/
theorem Nearest.not_lt (hm : Nearest v m q) (hn : Nearest v n p) (hcm : Canonical m q)
    (hcn : Canonical n p) : ¬ (m * 2 ^ q : ℚ) < n * 2 ^ p := by
  intro hlt
  have hq : (0 : ℚ) < 2 ^ q := by positivity
  have hsucc := succ_le_of_lt hcm hcn.lt hcn.lowest hlt
  obtain ⟨hup, hodd⟩ := hm.le_half hcm
  obtain ⟨h1, ht1⟩ := hm n p hcn.lt hcn.lowest
  obtain ⟨h2, ht2⟩ := hn m q hcm.lt hcm.lowest
  have heq := le_antisymm h1 h2
  have hem : Even m := (ht1 heq).resolve_left hlt.ne'
  have hen : Even n := (ht2 heq.symm).resolve_left hlt.ne
  have hmid : (n * 2 ^ p : ℚ) = (m + 1) * 2 ^ q := by
    rw [abs_sub_eq_iff_of_ne hlt.ne] at heq
    linarith
  by_cases hlast : m + 1 < 2 ^ 53
  · have hc : Canonical (m + 1) q :=
      ⟨hlast, hcm.lowest, hcm.highest, fun h => hcm.normal (by omega)⟩
    obtain ⟨rfl, -⟩ := hcn.injective hc (by rw [hmid]; push_cast; ring)
    exact absurd hen (by simpa [Nat.even_add_one] using hem)
  · have he : m = 2 ^ 53 - 1 := by have := hcm.lt; omega
    rw [he] at hem
    exact absurd hem (by decide)

/-- What rounds to a double is below `overflow`. -/
theorem Nearest.lt_overflow (h : Nearest v m q) (hc : Canonical m q) : v < overflow := by
  obtain ⟨hup, hodd⟩ := h.le_half hc
  have hle : (2 : ℚ) ^ q ≤ 2 ^ (970 : Int) * 2 := by
    rw [← zpow_add_one₀ two_ne_zero]
    exact zpow_le_zpow_right₀ (by norm_num) (by have := hc.highest; omega)
  have hu : (0 : ℚ) < 2 ^ (970 : Int) := by positivity
  unfold overflow
  generalize (2 : ℚ) ^ (970 : Int) = u at hle hu ⊢
  by_cases hm : Even m
  · have hm' : m + 2 ≤ 2 ^ 53 := by
      obtain ⟨k, rfl⟩ := hm
      have := hc.lt
      omega
    have hm'' : (m : ℚ) + 2 ≤ 2 ^ 53 := by exact_mod_cast hm'
    calc v ≤ (m + 1 / 2) * 2 ^ q := hup
      _ ≤ (m + 1 / 2) * (u * 2) := by gcongr
      _ < (2 ^ 54 - 1) * u := by nlinarith
  · have hm' : (m : ℚ) + 1 ≤ 2 ^ 53 := by exact_mod_cast hc.lt
    calc v < (m + 1 / 2) * 2 ^ q := hodd hm
      _ ≤ (m + 1 / 2) * (u * 2) := by gcongr
      _ ≤ (2 ^ 54 - 1) * u := by nlinarith

/-- A rational rounds to one double. -/
theorem Rounds.unique (hx : Rounds v x) (hy : Rounds v y) : x = y := by
  obtain ⟨hsx, hmx⟩ := hx
  obtain ⟨hsy, hmy⟩ := hy
  have hs : x.negative = y.negative := Bool.eq_iff_iff.mpr (hsx.trans hsy.symm)
  cases hx : x.magnitude with
  | nan => simp [hx] at hmx
  | infinite =>
    cases hy : y.magnitude with
    | nan => simp [hy] at hmy
    | infinite => exact ext_magnitude hs (hx.trans hy.symm) (by simp [hx])
    | finite n p =>
      simp only [hx, hy] at hmx hmy
      exact absurd (hmy.lt_overflow (canonical_of_magnitude hy)) hmx.not_gt
  | finite m q =>
    have hcm := canonical_of_magnitude hx
    cases hy : y.magnitude with
    | nan => simp [hy] at hmy
    | infinite =>
      simp only [hx, hy] at hmx hmy
      exact absurd (hmx.lt_overflow hcm) hmy.not_gt
    | finite n p =>
      have hcn := canonical_of_magnitude hy
      simp only [hx, hy] at hmx hmy
      have heq : (m * 2 ^ q : ℚ) = n * 2 ^ p :=
        le_antisymm (not_lt.mp (hmy.not_lt hmx hcn hcm)) (not_lt.mp (hmx.not_lt hmy hcm hcn))
      obtain ⟨rfl, rfl⟩ := hcm.injective hcn heq
      exact ext_magnitude hs (hx.trans hy.symm) (by simp [hx])

end ConsoleHost.Double
