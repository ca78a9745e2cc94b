import Mathlib
import ConsoleHost.Proofs.Double.Order

/-! Whole doubles: those that integers are converted to, and what whole numbers round to. -/
namespace ConsoleHost.Double

variable {m n : Nat} {q : Int} {z : Int}

/-- A number, zero or not. -/
def IsFinite (x : Double) : Prop := ∃ m q, x.magnitude = .finite m q

theorem IsFinite.isZero_or_isRegular {x : Double} (h : x.IsFinite) : x.IsZero ∨ x.IsRegular := by
  obtain ⟨m, q, hx⟩ := h
  by_cases hm : m = 0
  · exact .inl ⟨q, hm ▸ hx⟩
  · exact .inr ⟨m, q, hx, hm⟩

theorem value_of_isZero {x : Double} (h : x.IsZero) : x.value = 0 := by
  obtain ⟨q, hx⟩ := h
  simp [value_of_magnitude hx]

/-- The leading one of a significand is moved to its place. -/
theorem significand_bounds (hn : n ≠ 0) (hlt : n < 2 ^ 53) :
    2 ^ 52 ≤ n * 2 ^ (52 - n.log2) ∧ n * 2 ^ (52 - n.log2) < 2 ^ 53 := by
  have hlog : n.log2 < 53 := (Nat.log2_lt hn).mpr hlt
  have hpos : 0 < 2 ^ (52 - n.log2) := Nat.two_pow_pos _
  have hpow : 2 ^ n.log2 * 2 ^ (52 - n.log2) = 2 ^ 52 := by
    rw [← Nat.pow_add, Nat.add_sub_of_le (by omega)]
  constructor
  · calc 2 ^ 52 = 2 ^ n.log2 * 2 ^ (52 - n.log2) := hpow.symm
      _ ≤ n * 2 ^ (52 - n.log2) := Nat.mul_le_mul_right _ (Nat.log2_self_le hn)
  · calc n * 2 ^ (52 - n.log2) < 2 ^ (n.log2 + 1) * 2 ^ (52 - n.log2) :=
          Nat.mul_lt_mul_of_pos_right Nat.lt_log2_self hpos
      _ = 2 ^ 52 * 2 := by rw [Nat.pow_succ, Nat.mul_right_comm, hpow]
      _ = 2 ^ 53 := by norm_num

theorem magnitude_ofInt (h0 : z ≠ 0) (hz : z.natAbs < 2 ^ 53) :
    (ofInt z).magnitude =
        .finite (z.natAbs * 2 ^ (52 - z.natAbs.log2)) (z.natAbs.log2 - 52 : Int) ∧
      ((ofInt z).negative = true ↔ z < 0) := by
  have hne : z.natAbs ≠ 0 := by omega
  have hlog : z.natAbs.log2 < 53 := (Nat.log2_lt hne).mpr hz
  obtain ⟨hlow, hhigh⟩ := significand_bounds hne hz
  have hbits : (ofInt z).bits.toNat = (if z < 0 then signWeight else 0) +
      (z.natAbs.log2 + 1022) * leadingOne + z.natAbs * 2 ^ (52 - z.natAbs.log2) := by
    have hof : (ofInt z).bits = .ofNat ((if z < 0 then signWeight else 0) +
        (z.natAbs.log2 + 1022) * leadingOne + z.natAbs * 2 ^ (52 - z.natAbs.log2)) := by
      rw [ofInt, if_neg h0]
      rfl
    rw [hof]
    refine UInt64.toNat_ofNat_of_lt' ?_
    unfold signWeight leadingOne UInt64.size
    split <;> omega
  generalize z.natAbs * 2 ^ (52 - z.natAbs.log2) = s at hlow hhigh hbits ⊢
  generalize z.natAbs.log2 = t at hlog hbits ⊢
  have hexponent : (ofInt z).exponentField = t + 1023 := by
    rw [exponentField, hbits]
    unfold signWeight leadingOne
    split <;> omega
  have hfraction : (ofInt z).fraction = s - leadingOne := by
    rw [fraction, hbits]
    unfold signWeight leadingOne
    split <;> omega
  constructor
  · rw [magnitude, hexponent, hfraction, if_neg (by omega), if_neg (by omega)]
    refine congrArg₂ Magnitude.finite ?_ ?_
    · unfold leadingOne
      omega
    · push_cast
      omega
  · rw [negative, hbits, beq_iff_eq]
    unfold signWeight leadingOne
    split <;> simp_all <;> omega

/-- The double that an integer is converted to is worth that integer. -/
theorem value_ofInt (hz : z.natAbs < 2 ^ 53) : (ofInt z).IsFinite ∧ (ofInt z).value = z := by
  by_cases h0 : z = 0
  · subst h0
    have hm : (ofInt 0).magnitude = .finite 0 (-1074) := by decide
    exact ⟨⟨_, _, hm⟩, by simp [value_of_magnitude hm]⟩
  · have hlog : z.natAbs.log2 < 53 := (Nat.log2_lt (by omega)).mpr hz
    obtain ⟨hm, hneg⟩ := magnitude_ofInt h0 hz
    have hsize : (z.natAbs * 2 ^ (52 - z.natAbs.log2) : Nat) * 2 ^ (z.natAbs.log2 - 52 : Int) =
        (z.natAbs : ℚ) := by
      rw [show (z.natAbs.log2 - 52 : Int) = -((52 - z.natAbs.log2 : Nat) : Int) by omega, zpow_neg,
        zpow_natCast]
      push_cast
      rw [mul_assoc, mul_inv_cancel₀ (by positivity), mul_one]
    refine ⟨⟨_, _, hm⟩, ?_⟩
    rw [value_of_magnitude hm, hsize, Nat.cast_natAbs, sign]
    simp only [hneg]
    split
    · rw [abs_of_neg ‹_›]
      simp
    · rw [abs_of_nonneg (by omega), one_mul]

/-- Up to `2 ^ 53` every integer is a double. -/
theorem exists_value_eq (hz : z.natAbs ≤ 2 ^ 53) : ∃ x : Double, x.IsFinite ∧ x.value = z := by
  rcases Nat.lt_or_eq_of_le hz with hlt | heq
  · exact ⟨ofInt z, value_ofInt hlt⟩
  · have hpos : (⟨0x4340000000000000⟩ : Double).magnitude = .finite (2 ^ 52) 1 := by decide
    have hneg : (⟨0xC340000000000000⟩ : Double).magnitude = .finite (2 ^ 52) 1 := by decide
    rcases Int.natAbs_eq z with h | h
    · refine ⟨_, ⟨_, _, hpos⟩, ?_⟩
      rw [value_of_magnitude hpos, h, heq, sign, if_neg (by decide)]
      norm_num
    · refine ⟨_, ⟨_, _, hneg⟩, ?_⟩
      rw [value_of_magnitude hneg, h, heq, sign, if_pos (by decide)]
      norm_num

/-- A whole number up to `2 ^ 53` rounds to no double but itself. -/
theorem Nearest.eq_of_le (h : Nearest n m q) (hn : n ≤ 2 ^ 53) : (m * 2 ^ q : ℚ) = n := by
  obtain ⟨k, p, hk, hp, heq⟩ : ∃ (k : Nat) (p : Int), k < 2 ^ 53 ∧ -1074 ≤ p ∧
      (k * 2 ^ p : ℚ) = n := by
    rcases Nat.lt_or_eq_of_le hn with hlt | rfl
    · exact ⟨n, 0, hlt, by norm_num, by simp⟩
    · exact ⟨2 ^ 52, 1, by norm_num, by norm_num, by norm_num⟩
  obtain ⟨hle, -⟩ := h k p hk hp
  rw [heq, sub_self, abs_zero, abs_nonpos_iff] at hle
  linarith

end ConsoleHost.Double
