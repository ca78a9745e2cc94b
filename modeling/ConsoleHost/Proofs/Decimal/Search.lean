import ConsoleHost.Proofs.Decimal.Grid
import Mathlib.Data.Int.Log
import Mathlib.Data.Rat.Floor

/-! The search over the grids: it ends, with the coarsest grid that has a point in the interval. -/
namespace ConsoleHost.Interval

open Double

variable {i : Interval} {v : ℚ} {m c : Nat} {p q : Int} {d : Decimal}

/-- The decimal of fewest digits in an interval: no coarser grid has a member, and on its own grid
none is nearer to the middle. -/
structure IsShortest (i : Interval) (d : Decimal) : Prop where
  nearest : i.NearestOn d.exponent d.digits
  coarsest : ∀ p, d.exponent < p → ∀ c : Nat, (c * 10 ^ p : ℚ) ∉ i

/-- Twice a power of two is below the middle, and the power after that above every member. -/
def twos (i : Interval) : Int := i.exponent + i.high.log2 + 1

/-- The place of `top` for a number below `2 ^ t`. -/
def place (t : Int) : Int := if 0 ≤ t then t / 3 + 1 else t / 4 + 1

theorem top_eq (i : Interval) : i.top = place i.twos := rfl

theorem two_zpow_le_ten_zpow_place (t : Int) : (2 : ℚ) ^ t ≤ 10 ^ place t := by
  unfold place
  split
  · rename_i ht
    obtain ⟨a, ha⟩ : ∃ a : Nat, t / 3 + 1 = a := ⟨(t / 3 + 1).toNat, by omega⟩
    calc (2 : ℚ) ^ t ≤ 2 ^ (3 * (a : Int)) := zpow_le_zpow_right₀ (by norm_num) (by omega)
      _ = 8 ^ a := by rw [zpow_mul, zpow_natCast]; norm_num
      _ ≤ 10 ^ a := by gcongr; norm_num
      _ = 10 ^ (t / 3 + 1) := by rw [ha, zpow_natCast]
  · rename_i ht
    obtain ⟨a, ha⟩ : ∃ a : Nat, t / 4 + 1 = -a := ⟨(-(t / 4 + 1)).toNat, by omega⟩
    calc (2 : ℚ) ^ t ≤ 2 ^ (4 * (-a : Int)) := zpow_le_zpow_right₀ (by norm_num) (by omega)
      _ = (16 ^ a)⁻¹ := by rw [zpow_mul, zpow_neg, zpow_natCast]; norm_num
      _ ≤ (10 ^ a)⁻¹ := by gcongr; norm_num
      _ = 10 ^ (t / 4 + 1) := by rw [ha, zpow_neg, zpow_natCast]

/-- Over the exponents of doubles `place` is off by fewer than 83 places. -/
theorem ten_zpow_place_le {t : Int} (hl : -1076 ≤ t) (hh : t < 1026) :
    (10 : ℚ) ^ (place t - 83) ≤ 2 ^ (t - 1) := by
  unfold place
  split
  · rename_i ht
    obtain ⟨a, ha⟩ : ∃ a : Nat, t / 3 = a := ⟨(t / 3).toNat, by omega⟩
    have hsmall : (5 / 4 : ℚ) ^ a ≤ 10 ^ 81 :=
      calc (5 / 4 : ℚ) ^ a ≤ (5 / 4) ^ (3 * 114) := pow_le_pow_right₀ (by norm_num) (by omega)
        _ = ((5 / 4) ^ 3) ^ 114 := pow_mul _ _ _
        _ ≤ 2 ^ 114 := by gcongr; norm_num
        _ ≤ 10 ^ 81 := by norm_num
    calc (10 : ℚ) ^ (t / 3 + 1 - 83) = (5 / 4) ^ a * 8 ^ a / 10 ^ 82 := by
          rw [ha, show (a : Int) + 1 - 83 = a - (82 : Nat) by omega, zpow_sub₀ (by norm_num),
            zpow_natCast, zpow_natCast, ← mul_pow]
          norm_num
      _ ≤ 10 ^ 81 * 8 ^ a / 10 ^ 82 := by gcongr
      _ ≤ 8 ^ a / 2 := by
          have : (0 : ℚ) < 8 ^ a := by positivity
          linarith
      _ = 2 ^ (3 * (a : Int) - 1) := by
          rw [zpow_sub_one₀ two_ne_zero, zpow_mul, zpow_natCast, div_eq_mul_inv]
          norm_num
      _ ≤ 2 ^ (t - 1) := zpow_le_zpow_right₀ (by norm_num) (by omega)
  · rename_i ht
    obtain ⟨a, ha⟩ : ∃ a : Nat, t / 4 = -a := ⟨(-(t / 4)).toNat, by omega⟩
    have hsmall : (8 / 5 : ℚ) ^ a ≤ 10 ^ 81 :=
      calc (8 / 5 : ℚ) ^ a ≤ (8 / 5) ^ (3 * 90) := pow_le_pow_right₀ (by norm_num) (by omega)
        _ = ((8 / 5) ^ 3) ^ 90 := pow_mul _ _ _
        _ ≤ 5 ^ 90 := by gcongr; norm_num
        _ ≤ 10 ^ 81 := by norm_num
    have hten : (16 : ℚ) ^ a = (8 / 5) ^ a * 10 ^ a := by rw [← mul_pow]; norm_num
    calc (10 : ℚ) ^ (t / 4 + 1 - 83) = (10 ^ a)⁻¹ / 10 ^ 82 := by
          rw [ha, show -(a : Int) + 1 - 83 = -a - (82 : Nat) by omega, zpow_sub₀ (by norm_num),
            zpow_neg, zpow_natCast, zpow_natCast]
      _ ≤ (16 ^ a)⁻¹ / 2 := by
          have h10 : (0 : ℚ) < 10 ^ a := by positivity
          rw [hten, div_le_div_iff₀ (by positivity) (by norm_num), inv_mul_eq_div, inv_mul_eq_div,
            div_le_div_iff₀ h10 (by positivity)]
          nlinarith
      _ = 2 ^ (4 * (-a : Int) - 1) := by
          rw [zpow_sub_one₀ two_ne_zero, zpow_mul, zpow_neg, zpow_natCast, div_eq_mul_inv]
          norm_num
      _ ≤ 2 ^ (t - 1) := zpow_le_zpow_right₀ (by norm_num) (by omega)

theorem twos_around (m : Nat) (q : Int) :
    (around m q).twos = q - 2 + (4 * m + 2).log2 + 1 := rfl

theorem log2_bounds (hm : m ≠ 0) (hlt : m < 2 ^ 53) :
    2 ≤ (4 * m + 2).log2 ∧ (4 * m + 2).log2 ≤ 54 ∧ 2 ^ (4 * m + 2).log2 ≤ 4 * m := by
  have hne : 4 * m + 2 ≠ 0 := by omega
  have hlow : 2 ≤ (4 * m + 2).log2 := (Nat.le_log2 hne).mpr (by omega)
  have hhigh : (4 * m + 2).log2 < 55 := (Nat.log2_lt hne).mpr (by omega)
  have hself : 2 ^ (4 * m + 2).log2 ≤ 4 * m + 2 := Nat.log2_self_le hne
  obtain ⟨k, hk⟩ : 4 ∣ 2 ^ (4 * m + 2).log2 := pow_dvd_pow 2 hlow
  exact ⟨hlow, by omega, by omega⟩

/-- The middle is at least half the power of two that bounds the interval. -/
theorem two_zpow_le_center (hm : m ≠ 0) (hlt : m < 2 ^ 53) :
    (2 : ℚ) ^ ((around m q).twos - 1) ≤ m * 2 ^ q := by
  obtain ⟨-, -, hle⟩ := log2_bounds hm hlt
  have hle' : (2 : ℚ) ^ (4 * m + 2).log2 ≤ 4 * m := by exact_mod_cast hle
  have hq : (0 : ℚ) < 2 ^ (q - 2) := by positivity
  calc (2 : ℚ) ^ ((around m q).twos - 1) = 2 ^ (4 * m + 2).log2 * 2 ^ (q - 2) := by
        rw [twos_around, ← zpow_natCast, ← zpow_add₀ two_ne_zero]
        ring_nf
    _ ≤ 4 * m * 2 ^ (q - 2) := mul_le_mul_of_nonneg_right hle' hq.le
    _ = m * 2 ^ q := by
        rw [quarter_zpow]
        ring

/-- Every member is below the first grid searched. -/
theorem lt_top (h : v ∈ around m q) : v < 10 ^ (around m q).top := by
  have hv : v ≤ (4 * m + 2 : Nat) * 2 ^ (q - 2) := by
    rw [mem_def] at h
    split at h
    · exact h.2
    · exact h.2.le
  have hlog : ((4 * m + 2 : Nat) : ℚ) < 2 ^ ((4 * m + 2).log2 + 1) := by
    exact_mod_cast Nat.lt_log2_self
  have hq : (0 : ℚ) < 2 ^ (q - 2) := by positivity
  calc v ≤ (4 * m + 2 : Nat) * 2 ^ (q - 2) := hv
    _ < 2 ^ ((4 * m + 2).log2 + 1) * 2 ^ (q - 2) := mul_lt_mul_of_pos_right hlog hq
    _ = 2 ^ (around m q).twos := by
        rw [twos_around, ← zpow_natCast, ← zpow_add₀ two_ne_zero]
        push_cast
        ring_nf
    _ ≤ 10 ^ (around m q).top := two_zpow_le_ten_zpow_place _

/-! ### Seventeen digits suffice -/

/-- What is nearer to a double than the gap below it is a member. -/
theorem mem_of_near (hm : m ≠ 0) (h : |v - m * 2 ^ q| < gap m q) : v ∈ around m q := by
  have hg := gap_le m q
  obtain ⟨h1, h2⟩ := abs_lt.mp h
  rw [mem_around hm]
  split
  · exact ⟨by linarith, by linarith⟩
  · exact ⟨by linarith, by linarith⟩

theorem center_le_gap (hlt : m < 2 ^ 53) : (m * 2 ^ q : ℚ) ≤ 2 ^ 54 * gap m q := by
  have hq : (0 : ℚ) < 2 ^ q := by positivity
  have hm : (m : ℚ) ≤ 2 ^ 53 := by exact_mod_cast hlt.le
  unfold gap
  split
  · rename_i hfirst
    rw [hfirst.1]
    unfold leadingOne
    push_cast
    linarith
  · nlinarith

/-- A grid of at least seventeen digits has a member. -/
theorem exists_mem_grid (hm : m ≠ 0) (hlt : m < 2 ^ 53)
    (hp : (10 : ℚ) ^ (p + 16) ≤ m * 2 ^ q) : ∃ c : Nat, (c * 10 ^ p : ℚ) ∈ around m q := by
  have hb := below_le (around m q) p
  have ha := lt_above (around m q) p
  have hgap := center_le_gap (q := q) hlt
  have hg := gap_pos m q
  have hstep : (10 : ℚ) ^ p * 10 ^ 16 ≤ 2 ^ 54 * gap m q := by
    have he : (10 : ℚ) ^ (p + 16) = 10 ^ p * 10 ^ 16 := zpow_add₀ (by norm_num) _ _
    exact (he ▸ hp).trans hgap
  rw [center_around] at hb ha
  push_cast at ha
  by_cases hnear : (m * 2 ^ q : ℚ) - (around m q).below p * 10 ^ p ≤ 10 ^ p / 2
  · refine ⟨(around m q).below p, mem_of_near hm ?_⟩
    rw [abs_lt]
    constructor <;> linarith
  · refine ⟨(around m q).below p + 1, mem_of_near hm ?_⟩
    push_cast
    rw [abs_lt]
    constructor <;> linarith

/-- The place of the first digit of a double, which is not far below the first grid searched. -/
theorem exists_first_place (hc : Canonical m q) (hm : m ≠ 0) :
    ∃ e : Int, (around m q).top - 83 ≤ e ∧ e < (around m q).top ∧
      (10 : ℚ) ^ e ≤ m * 2 ^ q ∧ (m * 2 ^ q : ℚ) < 10 ^ (e + 1) := by
  have hi := center_mem (q := q) hm
  rw [center_around] at hi
  have hpos := pos_of_mem hm hi
  have hb : 1 < 10 := by norm_num
  obtain ⟨hlow, hhigh, -⟩ := log2_bounds hm hc.lt
  have hl := hc.lowest
  have hh := hc.highest
  have ht := twos_around m q
  refine ⟨Int.log 10 (m * 2 ^ q : ℚ), ?_, ?_, ?_, ?_⟩
  · rw [← Int.zpow_le_iff_le_log hb hpos, top_eq]
    exact (ten_zpow_place_le (by omega) (by omega)).trans (two_zpow_le_center hm hc.lt)
  · rw [← Int.lt_zpow_iff_log_lt hb hpos]
    exact_mod_cast lt_top hi
  · exact_mod_cast Int.zpow_log_le_self hb hpos
  · exact_mod_cast Int.lt_zpow_succ_log_self hb (m * 2 ^ q : ℚ)

/-! ### What the search finds -/

theorem exists_first {α : Type} {f : Nat → Option α} {n : Nat} {a : α}
    (h : (List.range n).findSome? f = some a) : ∃ k < n, f k = some a ∧ ∀ j < k, f j = none := by
  obtain ⟨l, k, r, hr, hk, hl⟩ := List.findSome?_eq_some_iff.mp h
  rw [List.range_eq_range', List.range'_eq_append_iff] at hr
  obtain ⟨j, hj, rfl, hr⟩ := hr
  have hkj : k = j ∧ j < n := by
    cases hn : n - j with
    | zero => simp [hn] at hr
    | succ r =>
      rw [hn, List.range'_succ] at hr
      simp at hr
      omega
  refine ⟨k, by omega, hk, fun x hx => hl x ?_⟩
  rw [List.mem_range'_1]
  omega

/-- Above the place of `top` there are no members. -/
theorem not_mem_of_top_lt (hm : m ≠ 0) (hp : (around m q).top < p) :
    (c * 10 ^ p : ℚ) ∉ around m q := by
  intro hcm
  have hv := pos_of_mem hm hcm
  have hc0 : 1 ≤ c := by
    by_contra h0
    simp [show c = 0 by omega] at hv
  have hc1 : (1 : ℚ) ≤ c := by exact_mod_cast hc0
  have hpow : (10 : ℚ) ^ (around m q).top ≤ 10 ^ p := zpow_le_zpow_right₀ (by norm_num) (by omega)
  have hlt := lt_top hcm
  nlinarith

/-- One of the grids that are searched has a member. -/
theorem exists_nearest? (hc : Canonical m q) (hm : m ≠ 0) :
    ∃ k < grids, ∃ c, (around m q).nearest? ((around m q).top - k) = some c := by
  obtain ⟨e, hlow, hhigh, hself, -⟩ := exists_first_place hc hm
  obtain ⟨k, hk⟩ : ∃ k : Nat, (k : Int) = (around m q).top - (e - 16) :=
    ⟨((around m q).top - (e - 16)).toNat, by omega⟩
  refine ⟨k, by unfold grids; omega, ?_⟩
  obtain ⟨c, hcm⟩ := exists_mem_grid hm hc.lt (p := e - 16) (by simpa using hself)
  rw [show (around m q).top - k = e - 16 by omega]
  cases hn : (around m q).nearest? (e - 16) with
  | none => exact absurd hcm (not_mem_of_nearest? (center_mem hm) hn c)
  | some c => exact ⟨c, rfl⟩

/-- The first grid with a member is the one of the decimal that is found. -/
theorem exists_shortest (hc : Canonical m q) (hm : m ≠ 0) :
    ∃ (k c : Nat), (around m q).nearest? ((around m q).top - k) = some c ∧
      (around m q).shortest = ⟨c, (around m q).top - k⟩ ∧
      ∀ j : Nat, j < k → (around m q).nearest? ((around m q).top - j) = none := by
  obtain ⟨n, hn, b, hb⟩ := exists_nearest? hc hm
  have hsome : ((List.range grids).findSome? fun (k : Nat) =>
      ((around m q).nearest? ((around m q).top - k)).map
        (Decimal.mk · ((around m q).top - k))).isSome := by
    rw [List.findSome?_isSome_iff]
    exact ⟨n, List.mem_range.mpr hn, by rw [hb]; rfl⟩
  obtain ⟨d, hd⟩ := Option.isSome_iff_exists.mp hsome
  obtain ⟨k, -, hfound, hbefore⟩ := exists_first hd
  obtain ⟨c, hnc, rfl⟩ := Option.map_eq_some_iff.mp hfound
  refine ⟨k, c, hnc, ?_, fun j hj => Option.map_eq_none_iff.mp (hbefore j hj)⟩
  unfold shortest
  rw [hd]
  rfl

theorem isShortest_shortest (hc : Canonical m q) (hm : m ≠ 0) :
    (around m q).IsShortest (around m q).shortest := by
  have hi := center_mem (q := q) hm
  obtain ⟨k, c, hnc, hshort, hbefore⟩ := exists_shortest hc hm
  rw [hshort]
  refine ⟨nearestOn_of_nearest? hi hnc, ?_⟩
  intro p hp c hcm
  dsimp only at hp
  by_cases htop : p ≤ (around m q).top
  · obtain ⟨j, hj⟩ : ∃ j : Nat, (j : Int) = (around m q).top - p :=
      ⟨((around m q).top - p).toNat, by omega⟩
    have hnone := hbefore j (by omega)
    rw [show (around m q).top - j = p by omega] at hnone
    exact not_mem_of_nearest? hi hnone c hcm
  · exact not_mem_of_top_lt hm (by omega) hcm

/-! ### The digits found -/

theorem IsShortest.digits_ne_zero (h : (around m q).IsShortest d) (hm : m ≠ 0) : d.digits ≠ 0 := by
  intro h0
  have hv := pos_of_mem hm h.nearest.mem
  simp [h0] at hv

/-- There are no zeros at the end. -/
theorem IsShortest.not_dvd (h : i.IsShortest d) : ¬ 10 ∣ d.digits := by
  rintro ⟨c, hc⟩
  refine h.coarsest (d.exponent + 1) (by omega) c ?_
  have he : (c * 10 ^ (d.exponent + 1) : ℚ) = d.digits * 10 ^ d.exponent := by
    rw [hc, zpow_add_one₀ (by norm_num)]
    push_cast
    ring
  rw [he]
  exact h.nearest.mem

/-- There are at most seventeen. -/
theorem IsShortest.digits_lt (h : (around m q).IsShortest d) (hc : Canonical m q) (hm : m ≠ 0) :
    d.digits < 10 ^ 17 := by
  by_contra hlong
  have hi := center_mem (q := q) hm
  obtain ⟨e, -, -, hself, hnext⟩ := exists_first_place hc hm
  -- the grid of seventeen digits has a member, so the one found is no finer
  have hexp : e - 16 ≤ d.exponent := by
    by_contra hfine
    obtain ⟨c, hcm⟩ := exists_mem_grid hm hc.lt (p := e - 16) (by simpa using hself)
    exact h.coarsest _ (by omega) c hcm
  have hlong' : (10 : ℚ) ^ 17 ≤ d.digits := by exact_mod_cast not_lt.mp hlong
  have hten : (0 : ℚ) < 10 ^ d.exponent := by positivity
  refine h.coarsest (d.exponent + 17) (by omega) 1 (mem_of_between hi h.nearest.mem ?_ ?_)
  · rw [center_around, Nat.cast_one, one_mul]
    exact hnext.le.trans (zpow_le_zpow_right₀ (by norm_num) (by omega))
  · rw [Nat.cast_one, one_mul, zpow_add₀ (by norm_num), mul_comm]
    exact mul_le_mul_of_nonneg_right (by exact_mod_cast hlong') hten.le

end ConsoleHost.Interval
