import ConsoleHost.Proofs.Decimal.Interval

/-! Decimal grids: the multiples of a power of ten, and which of them lie in an interval. -/
namespace ConsoleHost.Interval

open Double

variable {i : Interval} {p : Int} {c n : Nat}

/-- The factor by which `scaled` and `unit` make whole numbers of rationals. -/
def weight (i : Interval) (p : Int) : ℚ := 2 ^ (-i.exponent).toNat * 10 ^ (-p).toNat

theorem weight_pos (i : Interval) (p : Int) : 0 < i.weight p := by
  unfold weight
  positivity

theorem pow_toNat {b : ℚ} (hb : b ≠ 0) (z : Int) : b ^ z.toNat = b ^ z * b ^ (-z).toNat := by
  obtain ⟨k, rfl | rfl⟩ := z.eq_nat_or_neg
  · simp
  · simp [hb]

theorem cast_scaled (i : Interval) (p : Int) (n : Nat) :
    (i.scaled p n : ℚ) = n * 2 ^ i.exponent * i.weight p := by
  have h := pow_toNat two_ne_zero i.exponent
  simp only [scaled, weight, Nat.pow_eq]
  push_cast
  rw [h]
  ring

theorem cast_unit (i : Interval) (p : Int) : (i.unit p : ℚ) = 10 ^ p * i.weight p := by
  have h := pow_toNat (by norm_num : (10 : ℚ) ≠ 0) p
  simp only [unit, weight, Nat.pow_eq]
  push_cast
  rw [h]
  ring

theorem scaled_le_iff (i : Interval) (p : Int) (n c : Nat) :
    i.scaled p n ≤ c * i.unit p ↔ (n * 2 ^ i.exponent : ℚ) ≤ c * 10 ^ p := by
  rw [← Nat.cast_le (α := ℚ), Nat.cast_mul, cast_scaled, cast_unit, ← mul_assoc,
    mul_le_mul_iff_left₀ (i.weight_pos p)]

theorem le_scaled_iff (i : Interval) (p : Int) (n c : Nat) :
    c * i.unit p ≤ i.scaled p n ↔ (c * 10 ^ p : ℚ) ≤ n * 2 ^ i.exponent := by
  rw [← Nat.cast_le (α := ℚ), Nat.cast_mul, cast_scaled, cast_unit, ← mul_assoc,
    mul_le_mul_iff_left₀ (i.weight_pos p)]

/-- The test in whole numbers is membership. -/
theorem has_iff (i : Interval) (p : Int) (c : Nat) : i.has p c = true ↔ (c * 10 ^ p : ℚ) ∈ i := by
  rw [mem_def]
  unfold has
  split
  · rw [decide_eq_true_iff, scaled_le_iff, le_scaled_iff]
  · rw [decide_eq_true_iff, ← not_le, ← not_le, scaled_le_iff, le_scaled_iff, not_le, not_le]

/-- The multiple of a power of ten just below the middle, or the middle itself. -/
def below (i : Interval) (p : Int) : Nat := i.scaled p i.mid / i.unit p

theorem unit_pos (i : Interval) (p : Int) : 0 < i.unit p := by
  simp only [unit, Nat.pow_eq]
  positivity

theorem below_le (i : Interval) (p : Int) : (i.below p * 10 ^ p : ℚ) ≤ i.center :=
  (le_scaled_iff i p i.mid (i.below p)).mp (Nat.div_mul_le_self _ _)

theorem lt_above (i : Interval) (p : Int) : i.center < ((i.below p + 1 : Nat) * 10 ^ p : ℚ) := by
  rw [center, ← not_le, ← le_scaled_iff, not_le]
  exact Nat.lt_mul_of_div_lt (Nat.lt_succ_self _) (i.unit_pos p)

/-- Which of its two neighbours the middle is nearer to. -/
theorem scaled_lt_iff (i : Interval) (p : Int) :
    2 * i.scaled p i.mid < (i.below p + (i.below p + 1)) * i.unit p ↔
      2 * i.center < (i.below p + (i.below p + 1 : Nat)) * 10 ^ p := by
  rw [← Nat.cast_lt (α := ℚ), Nat.cast_mul, Nat.cast_mul, cast_scaled, cast_unit, Nat.cast_ofNat,
    ← mul_assoc 2, ← mul_assoc _ (10 ^ p : ℚ), mul_lt_mul_iff_left₀ (i.weight_pos p),
    Nat.cast_add, center]

/-- A point of the grid that is a member has the neighbour on its side as a member that is at
least as near to the middle. -/
theorem neighbour_of_mem (hi : i.center ∈ i) (h : (c * 10 ^ p : ℚ) ∈ i) :
    ((i.below p * 10 ^ p : ℚ) ∈ i ∧ |i.center - i.below p * 10 ^ p| ≤ |i.center - c * 10 ^ p|) ∨
      (((i.below p + 1 : Nat) * 10 ^ p : ℚ) ∈ i ∧
        |i.center - (i.below p + 1 : Nat) * 10 ^ p| ≤ |i.center - c * 10 ^ p|) := by
  have hp : (0 : ℚ) < 10 ^ p := by positivity
  have hb := below_le i p
  have ha := lt_above i p
  by_cases hc : c ≤ i.below p
  · have hc' : (c * 10 ^ p : ℚ) ≤ i.below p * 10 ^ p := by gcongr
    refine Or.inl ⟨mem_of_between h hi hc' hb, ?_⟩
    rw [abs_of_nonneg (by linarith), abs_of_nonneg (by linarith)]
    linarith
  · have hc' : ((i.below p + 1 : Nat) * 10 ^ p : ℚ) ≤ c * 10 ^ p := by
      gcongr
      omega
    refine Or.inr ⟨mem_of_between hi h ha.le hc', ?_⟩
    rw [abs_of_nonpos (by linarith), abs_of_nonpos (by linarith)]
    linarith

/-- A member on a grid that no other one on it is nearer to the middle than. -/
structure NearestOn (i : Interval) (p : Int) (c : Nat) : Prop where
  mem : (c * 10 ^ p : ℚ) ∈ i
  le : ∀ d : Nat, (d * 10 ^ p : ℚ) ∈ i → |i.center - c * 10 ^ p| ≤ |i.center - d * 10 ^ p|

/-- Only the two neighbours of the middle have to be compared with. -/
theorem nearestOn_of_neighbours (hi : i.center ∈ i) (hc : (c * 10 ^ p : ℚ) ∈ i)
    (hb : (i.below p * 10 ^ p : ℚ) ∈ i →
      |i.center - c * 10 ^ p| ≤ |i.center - i.below p * 10 ^ p|)
    (ha : ((i.below p + 1 : Nat) * 10 ^ p : ℚ) ∈ i →
      |i.center - c * 10 ^ p| ≤ |i.center - (i.below p + 1 : Nat) * 10 ^ p|) :
    i.NearestOn p c := by
  refine ⟨hc, ?_⟩
  intro d hd
  rcases neighbour_of_mem hi hd with ⟨hm, hle⟩ | ⟨hm, hle⟩
  · exact (hb hm).trans hle
  · exact (ha hm).trans hle

theorem nearestOn_of_nearest? (hi : i.center ∈ i) (h : i.nearest? p = some c) :
    i.NearestOn p c := by
  have hmid := scaled_lt_iff i p
  have hhb := has_iff i p (i.below p)
  have hha := has_iff i p (i.below p + 1)
  have hlt : (i.below p * 10 ^ p : ℚ) < (i.below p + 1 : Nat) * 10 ^ p := by
    have hp : (0 : ℚ) < 10 ^ p := by positivity
    gcongr
    omega
  have hdef : i.scaled p i.mid / i.unit p = i.below p := rfl
  simp only [nearest?, hdef] at h
  split at h
  · rename_i hb' ha'
    split at h
    · rename_i hlow
      have hlow' := hmid.mp hlow
      cases h
      refine nearestOn_of_neighbours hi (hhb.mp hb') (fun _ => le_rfl) ?_
      intro _
      exact (abs_sub_le_iff_of_lt hlt).mpr (by linarith)
    · rename_i hlow
      have hlow' := mt hmid.mpr hlow
      cases h
      refine nearestOn_of_neighbours hi (hha.mp ha') ?_ (fun _ => le_rfl)
      intro _
      exact (abs_sub_le_iff_of_gt hlt).mpr (by linarith)
  · rename_i hb' ha'
    cases h
    refine nearestOn_of_neighbours hi (hhb.mp hb') (fun _ => le_rfl) ?_
    intro hm
    simp [hha.mpr hm] at ha'
  · rename_i hb' ha'
    cases h
    refine nearestOn_of_neighbours hi (hha.mp ha') ?_ (fun _ => le_rfl)
    intro hm
    simp [hhb.mpr hm] at hb'
  · cases h

theorem not_mem_of_nearest? (hi : i.center ∈ i) (h : i.nearest? p = none) (c : Nat) :
    (c * 10 ^ p : ℚ) ∉ i := by
  intro hc
  have hhb := has_iff i p (i.below p)
  have hha := has_iff i p (i.below p + 1)
  have hdef : i.scaled p i.mid / i.unit p = i.below p := rfl
  simp only [nearest?, hdef] at h
  rcases neighbour_of_mem hi hc with ⟨hm, -⟩ | ⟨hm, -⟩
  · rw [hhb.mpr hm] at h
    split at h <;> simp_all
    split at h <;> cases h
  · rw [hha.mpr hm] at h
    split at h <;> simp_all
    split at h <;> cases h

end ConsoleHost.Interval
