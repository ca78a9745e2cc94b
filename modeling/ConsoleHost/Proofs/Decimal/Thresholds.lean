import Mathlib
import ConsoleHost.Proofs.Decimal.RoundTrip
import ConsoleHost.Proofs.Double.Order

/-! Thresholds: shortest decimals are in the order of the doubles that they are printed for, so that
where the point of one stands tells on which side of a double the other is. -/
namespace ConsoleHost

open ConsoleHost.Double ConsoleHost.Interval

variable {d : Decimal} {m n : Nat} {p q e : Int}

theorem shortest_le_iff (hcn : Canonical n p) (hn : n ≠ 0) (hcm : Canonical m q) (hm : m ≠ 0) :
    (around n p).shortest.value ≤ (around m q).shortest.value ↔ (n * 2 ^ p : ℚ) ≤ m * 2 ^ q := by
  have hnearn := nearest_of_mem hcn hn (isShortest_shortest hcn hn).nearest.mem
  have hnearm := nearest_of_mem hcm hm (isShortest_shortest hcm hm).nearest.mem
  constructor
  · exact hnearn.mono hnearm hcn hcm
  · intro hle
    by_contra hlt
    rw [not_le] at hlt
    have hge := hnearm.mono hnearn hcm hcn hlt.le
    obtain ⟨rfl, rfl⟩ := hcn.injective hcm (le_antisymm hle hge)
    exact lt_irrefl _ hlt

/-! ### The place of the point -/

namespace Decimal

/-- How far the point stands after the start of the digits. -/
def point (d : Decimal) : Int := (Nat.toDigits 10 d.digits).length + d.exponent

theorem lt_pow_length (n : Nat) : n < 10 ^ (Nat.toDigits 10 n).length :=
  (Nat.length_toDigits_le_iff (by norm_num) Nat.length_toDigits_pos).mp (Nat.le_refl _)

theorem pow_length_le (hn : n ≠ 0) : 10 ^ ((Nat.toDigits 10 n).length - 1) ≤ n := by
  by_contra hlt
  rw [not_le] at hlt
  by_cases hone : (Nat.toDigits 10 n).length - 1 = 0
  · rw [hone] at hlt
    omega
  · have hle := (Nat.length_toDigits_le_iff (by norm_num) (Nat.pos_of_ne_zero hone)).mpr hlt
    omega

/-- The place of the point says between which powers of ten a decimal lies. -/
theorem zpow_le_value_iff (hd : d.digits ≠ 0) (e : Int) : (10 : ℚ) ^ e ≤ d.value ↔ e < d.point := by
  have hlength := Nat.length_toDigits_pos (b := 10) (n := d.digits)
  have hlow : (10 : ℚ) ^ (d.point - 1) ≤ d.value := by
    have hdigits : (10 : ℚ) ^ ((Nat.toDigits 10 d.digits).length - 1) ≤ d.digits := by
      exact_mod_cast pow_length_le hd
    rw [value, point, show ((Nat.toDigits 10 d.digits).length + d.exponent - 1 : Int) =
      ((Nat.toDigits 10 d.digits).length - 1 : Nat) + d.exponent by omega,
      zpow_add₀ (by norm_num), zpow_natCast]
    gcongr
  have hhigh : d.value < (10 : ℚ) ^ d.point := by
    have hdigits : (d.digits : ℚ) < 10 ^ (Nat.toDigits 10 d.digits).length := by
      exact_mod_cast lt_pow_length d.digits
    rw [value, point, zpow_add₀ (by norm_num), zpow_natCast]
    gcongr
  constructor
  · intro hle
    exact (zpow_lt_zpow_iff_right₀ (by norm_num)).mp (hle.trans_lt hhigh)
  · intro hlt
    exact (zpow_le_zpow_right₀ (by norm_num) (by omega)).trans hlow

end Decimal

/-! ### Where an exponent begins -/

/-- The double nearest to one millionth. -/
def millionth : Double := ⟨0x3EB0C6F7A0B5ED8D⟩

theorem magnitude_millionth : millionth.magnitude = .finite 0x10C6F7A0B5ED8D (-72) := by decide

theorem shortest_millionth : (around 0x10C6F7A0B5ED8D (-72)).shortest = ⟨1, -6⟩ := by decide +kernel

theorem shortest_sextillion : (around 7629394531250000 17).shortest = ⟨1, 21⟩ := by decide +kernel

theorem canonical_sextillion : Canonical 7629394531250000 17 :=
  ⟨by norm_num, by norm_num, by norm_num, by norm_num⟩

theorem rounds_millionth : Rounds (1 / 10 ^ 6) millionth := by
  have h := rounds_shortest magnitude_millionth (by norm_num)
  have hsign : millionth.sign = 1 := by
    rw [sign, if_neg (by decide)]
  rw [shortest_millionth, hsign] at h
  have hvalue : (1 * (Decimal.mk 1 (-6)).value : ℚ) = 1 / 10 ^ 6 := by norm_num [Decimal.value]
  rwa [hvalue] at h

theorem value_millionth : millionth.value = 0x10C6F7A0B5ED8D * 2 ^ (-72 : Int) := by
  rw [value_of_magnitude magnitude_millionth, sign, if_neg (by decide)]
  norm_num

/-- The point of the shortest decimal is where a positional text can have it just for the doubles
from that of one millionth up to below `10 ^ 21`. -/
theorem point_shortest (hc : Canonical m q) (hm : m ≠ 0) :
    (-6 < (around m q).shortest.point ↔ millionth.value ≤ m * 2 ^ q) ∧
      (21 < (around m q).shortest.point ↔ (10 ^ 21 : ℚ) ≤ m * 2 ^ q) := by
  have hd := (isShortest_shortest hc hm).digits_ne_zero hm
  have hlow := shortest_le_iff (canonical_of_magnitude magnitude_millionth) (by norm_num) hc hm
  have hhigh := shortest_le_iff canonical_sextillion (by norm_num) hc hm
  rw [shortest_millionth] at hlow
  rw [shortest_sextillion] at hhigh
  constructor
  · rw [← Decimal.zpow_le_value_iff hd, value_millionth]
    have hone : (Decimal.mk 1 (-6)).value = (10 : ℚ) ^ (-6 : Int) := by simp [Decimal.value]
    rw [hone] at hlow
    exact_mod_cast hlow
  · rw [← Decimal.zpow_le_value_iff hd]
    have hone : (Decimal.mk 1 21).value = (10 : ℚ) ^ (21 : Int) := by simp [Decimal.value]
    have heq : ((7629394531250000 : Nat) * 2 ^ (17 : Int) : ℚ) = 10 ^ 21 := by norm_num
    rw [hone, heq] at hhigh
    exact hhigh

end ConsoleHost
