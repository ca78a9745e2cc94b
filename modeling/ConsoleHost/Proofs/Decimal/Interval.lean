import ConsoleHost.Decimal.Shortest
import ConsoleHost.Proofs.Double.Rounding

/-! The interval around a positive double holds just the rationals that round to it. -/
namespace ConsoleHost.Interval

open Double

/-- A rational lies in an interval. -/
def Holds (i : Interval) (v : ℚ) : Prop :=
  if i.closed then i.low * 2 ^ i.exponent ≤ v ∧ v ≤ i.high * 2 ^ i.exponent
  else i.low * 2 ^ i.exponent < v ∧ v < i.high * 2 ^ i.exponent

instance : Membership ℚ Interval := ⟨fun i v => i.Holds v⟩

/-- The double that the interval is around. -/
def center (i : Interval) : ℚ := i.mid * 2 ^ i.exponent

/-- From a double down to the end of its interval: half a unit, but only a quarter where the unit
changes. -/
def gap (m : Nat) (q : Int) : ℚ :=
  if m = leadingOne ∧ -1074 < q then 2 ^ q / 4 else 2 ^ q / 2

variable {i : Interval} {u v w : ℚ} {m n : Nat} {p q : Int}

theorem mem_def :
    v ∈ i ↔ if i.closed then i.low * 2 ^ i.exponent ≤ v ∧ v ≤ i.high * 2 ^ i.exponent
      else i.low * 2 ^ i.exponent < v ∧ v < i.high * 2 ^ i.exponent := Iff.rfl

/-- What lies between two members is a member. -/
theorem mem_of_between (hu : u ∈ i) (hw : w ∈ i) (huv : u ≤ v) (hvw : v ≤ w) : v ∈ i := by
  rw [mem_def] at hu hw ⊢
  split at hu
  · simp_all only [↓reduceIte]
    exact ⟨hu.1.trans huv, hvw.trans hw.2⟩
  · simp_all only [Bool.false_eq_true, ↓reduceIte]
    exact ⟨hu.1.trans_le huv, hvw.trans_lt hw.2⟩

theorem quarter_zpow (q : Int) : (2 : ℚ) ^ (q - 2) = 2 ^ q / 4 := by
  rw [zpow_sub₀ two_ne_zero]
  norm_num

@[simp] theorem center_around (m : Nat) (q : Int) : (around m q).center = m * 2 ^ q := by
  simp only [center, around, quarter_zpow]
  push_cast
  ring

theorem gap_pos (m : Nat) (q : Int) : 0 < gap m q := by
  unfold gap
  split <;> positivity

theorem gap_le (m : Nat) (q : Int) : gap m q ≤ 2 ^ q / 2 := by
  have hq : (0 : ℚ) < 2 ^ q := by positivity
  unfold gap
  split <;> linarith

/-- The ends of the interval around a double. -/
theorem mem_around (hm : m ≠ 0) :
    v ∈ around m q ↔ if m % 2 = 0 then m * 2 ^ q - gap m q ≤ v ∧ v ≤ (m + 1 / 2) * 2 ^ q
      else m * 2 ^ q - gap m q < v ∧ v < (m + 1 / 2) * 2 ^ q := by
  have hlow : ((around m q).low : ℚ) * 2 ^ (q - 2) = m * 2 ^ q - gap m q := by
    rw [quarter_zpow]
    unfold around gap
    dsimp only
    split
    · rw [Nat.cast_sub (by omega)]
      push_cast
      ring
    · rw [Nat.cast_sub (by omega)]
      push_cast
      ring
  have hhigh : ((around m q).high : ℚ) * 2 ^ (q - 2) = (m + 1 / 2) * 2 ^ q := by
    rw [quarter_zpow]
    simp only [around]
    push_cast
    ring
  rw [mem_def, show (around m q).exponent = q - 2 from rfl, hlow, hhigh]
  simp [around]

theorem ends_of_mem (hm : m ≠ 0) (h : v ∈ around m q) :
    m * 2 ^ q - gap m q ≤ v ∧ v ≤ (m + 1 / 2) * 2 ^ q := by
  rw [mem_around hm] at h
  split at h
  · exact h
  · exact ⟨h.1.le, h.2.le⟩

/-- A number of the grid below a double is at least twice the gap below it. -/
theorem le_sub_gap (hc : Canonical m q) (hn : n < 2 ^ 53) (hp : -1074 ≤ p)
    (hlt : (n * 2 ^ p : ℚ) < m * 2 ^ q) : (n * 2 ^ p : ℚ) ≤ m * 2 ^ q - 2 * gap m q := by
  have hq : (0 : ℚ) < 2 ^ q := by positivity
  have hgap := gap_le m q
  by_cases hpq : q ≤ p
  · obtain ⟨k, hk⟩ := exists_multiple n hpq
    rw [hk] at hlt ⊢
    have hkm : k < m := by exact_mod_cast lt_of_mul_lt_mul_right hlt hq.le
    have hkm' : (k : ℚ) + 1 ≤ m := by exact_mod_cast hkm
    nlinarith
  · have hle := le_of_exponent_lt hn (by omega : p < q)
    have hm : 2 ^ 52 ≤ m := by
      by_contra hm
      have := hc.normal (by omega)
      omega
    have hpred := two_zpow_pred q
    by_cases hfirst : m = leadingOne
    · have hg : gap m q = 2 ^ q / 4 := if_pos ⟨hfirst, by omega⟩
      rw [hg, hfirst]
      unfold leadingOne
      push_cast
      linarith
    · have hm' : 2 ^ 52 + 1 ≤ m := by unfold leadingOne at hfirst; omega
      have hm'' : (2 : ℚ) ^ 52 + 1 ≤ m := by exact_mod_cast hm'
      nlinarith

/-- The number twice the gap below a double is on the grid. -/
theorem exists_sub_gap (hc : Canonical m q) (hm : m ≠ 0) :
    ∃ (n : Nat) (p : Int), n < 2 ^ 53 ∧ -1074 ≤ p ∧
      (n * 2 ^ p : ℚ) = m * 2 ^ q - 2 * gap m q := by
  have hlt := hc.lt
  have hl := hc.lowest
  by_cases hfirst : m = leadingOne ∧ -1074 < q
  · refine ⟨2 ^ 53 - 1, q - 1, by norm_num, by omega, ?_⟩
    rw [gap, if_pos hfirst, hfirst.1, two_zpow_pred q]
    unfold leadingOne
    push_cast
    ring
  · refine ⟨m - 1, q, by omega, hl, ?_⟩
    rw [gap, if_neg hfirst, Nat.cast_sub (by omega)]
    push_cast
    ring

theorem nearest_of_mem (hc : Canonical m q) (hm : m ≠ 0) (h : v ∈ around m q) :
    Nearest v m q := by
  have hq : (0 : ℚ) < 2 ^ q := by positivity
  have hg := gap_pos m q
  have hle := ends_of_mem hm h
  rw [mem_around hm] at h
  have hlt (ho : ¬ Even m) : m * 2 ^ q - gap m q < v ∧ v < (m + 1 / 2) * 2 ^ q := by
    rwa [if_neg (fun he => ho (Nat.even_iff.mpr he))] at h
  intro n p hn hp
  rcases lt_trichotomy (n * 2 ^ p : ℚ) (m * 2 ^ q) with hn' | heq | hn'
  · have hfar := le_sub_gap hc hn hp hn'
    rw [abs_sub_le_iff_of_gt hn', abs_sub_eq_iff_of_ne hn'.ne']
    refine ⟨by linarith, fun htie => Or.inr (by_contra fun ho => ?_)⟩
    linarith [hlt ho]
  · rw [heq]
    exact ⟨le_rfl, fun _ => Or.inl rfl⟩
  · have hfar := succ_le_of_lt hc hn hp hn'
    rw [abs_sub_le_iff_of_lt hn', abs_sub_eq_iff_of_ne hn'.ne]
    refine ⟨by linarith, fun htie => Or.inr (by_contra fun ho => ?_)⟩
    linarith [hlt ho]

theorem mem_of_nearest (hc : Canonical m q) (hm : m ≠ 0) (h : Nearest v m q) :
    v ∈ around m q := by
  have hg := gap_pos m q
  obtain ⟨hup, hup'⟩ := h.le_half hc
  obtain ⟨n, p, hn, hp, he⟩ := exists_sub_gap hc hm
  have hlt : (m * 2 ^ q - 2 * gap m q : ℚ) < m * 2 ^ q := by linarith
  have hmid : (m * 2 ^ q + (m * 2 ^ q - 2 * gap m q)) / 2 = m * 2 ^ q - gap m q := by ring
  obtain ⟨hle, htie⟩ := h n p hn hp
  rw [he] at hle htie
  rw [abs_sub_le_iff_of_gt hlt, hmid] at hle
  rw [abs_sub_eq_iff_of_ne hlt.ne', hmid] at htie
  rw [mem_around hm]
  split
  · exact ⟨hle, hup⟩
  · rename_i ho
    have ho' : ¬ Even m := fun hev => ho (Nat.even_iff.mp hev)
    exact ⟨lt_of_le_of_ne hle fun hv => (htie hv.symm).elim hlt.ne ho', hup' ho'⟩

theorem mem_iff_nearest (hc : Canonical m q) (hm : m ≠ 0) : v ∈ around m q ↔ Nearest v m q :=
  ⟨nearest_of_mem hc hm, mem_of_nearest hc hm⟩

theorem center_mem (hm : m ≠ 0) : (around m q).center ∈ around m q := by
  have hq : (0 : ℚ) < 2 ^ q := by positivity
  have hg := gap_pos m q
  rw [mem_around hm, center_around]
  split
  · exact ⟨by linarith, by linarith⟩
  · exact ⟨by linarith, by linarith⟩

theorem pos_of_mem (hm : m ≠ 0) (h : v ∈ around m q) : 0 < v := by
  have hq : (0 : ℚ) < 2 ^ q := by positivity
  have hm' : (1 : ℚ) ≤ m := by exact_mod_cast Nat.one_le_iff_ne_zero.mpr hm
  have hg := gap_le m q
  obtain ⟨hl, -⟩ := ends_of_mem hm h
  nlinarith

/-- What rounds to a regular double has its sign, and a size in the interval around it. -/
theorem rounds_iff {x : Double} (hx : x.magnitude = .finite m q) (hm : m ≠ 0) :
    Rounds v x ↔ (x.negative = true ↔ v < 0) ∧ |v| ∈ around m q := by
  rw [Rounds, hx, mem_iff_nearest (canonical_of_magnitude hx) hm]

end ConsoleHost.Interval
