import ConsoleHost.Proofs.Decimal.Printed
import ConsoleHost.Proofs.Decimal.Search
import Mathlib

/-! The text of a real reads back: the number it denotes rounds to that real and to no other, and
the texts of what is not a number, of infinities and of zeros stand for nothing else. -/
namespace ConsoleHost

open ConsoleHost.Double ConsoleHost.Interval

variable {x y : Double} {v : ℚ} {m : Nat} {q : Int}

theorem realText_of_nan (h : x.magnitude = .nan) : realText x = "NaN" := by
  rw [realText, Layout.real, h]
  rfl

theorem realText_of_infinite (h : x.magnitude = .infinite) :
    realText x = if x.negative then "-Infinity" else "Infinity" := by
  simp only [realText, Layout.real, h]
  split <;> rfl

theorem realText_of_zero (h : x.IsZero) : realText x = "0" := by
  obtain ⟨q, h⟩ := h
  rw [realText, Layout.real, h]
  rfl

theorem realText_of_regular (hx : x.magnitude = .finite m q) (hm : m ≠ 0) :
    realText x =
      (if x.negative then "-" else "") ++ Layout.printed.decimal (around m q).shortest := by
  simp only [realText, Layout.real, hx]

/-- The text of a regular double is a numeral for the shortest decimal, with the sign. -/
theorem value?_realText (hx : x.magnitude = .finite m q) (hm : m ≠ 0) :
    Numeral.value? (realText x) = some (x.sign * (around m q).shortest.value) := by
  have h := Layout.unsigned?_decimal (around m q).shortest
  rw [realText_of_regular hx hm]
  unfold sign
  split
  · have hs : "-" ++ Layout.printed.decimal (around m q).shortest =
        String.ofList ('-' :: (Layout.printed.decimal (around m q).shortest).toList) := by
      rw [← String.toList_inj]
      simp
    rw [hs, Numeral.value?_minus h]
    ring_nf
  · have h' := Numeral.value?_of_unsigned? h
    rw [String.ofList_toList] at h'
    rw [String.empty_append, h', one_mul]

theorem shortest_value_pos (hc : Canonical m q) (hm : m ≠ 0) :
    0 < (around m q).shortest.value :=
  pos_of_mem hm (isShortest_shortest hc hm).nearest.mem

theorem rounds_shortest (hx : x.magnitude = .finite m q) (hm : m ≠ 0) :
    Rounds (x.sign * (around m q).shortest.value) x := by
  have hc := canonical_of_magnitude hx
  have hpos := shortest_value_pos hc hm
  rw [rounds_iff hx hm, sign_mul_neg_iff x hpos, abs_sign_mul, abs_of_pos hpos]
  exact ⟨Iff.rfl, (isShortest_shortest hc hm).nearest.mem⟩

/-- What is printed of a regular double reads back. -/
theorem exists_rounds_of_regular (hx : x.IsRegular) :
    ∃ v, Numeral.value? (realText x) = some v ∧ v ≠ 0 ∧ Rounds v x := by
  obtain ⟨m, q, hx, hm⟩ := hx
  have hpos := shortest_value_pos (canonical_of_magnitude hx) hm
  refine ⟨_, value?_realText hx hm, ?_, rounds_shortest hx hm⟩
  intro h0
  have habs := abs_sign_mul x (around m q).shortest.value
  rw [h0, abs_zero, abs_of_pos hpos] at habs
  exact hpos.ne habs

/-- The texts that no regular double has. -/
theorem realText_ne_of_regular (hx : x.IsRegular) :
    realText x ≠ "NaN" ∧ realText x ≠ "Infinity" ∧ realText x ≠ "-Infinity" ∧
      realText x ≠ "0" := by
  obtain ⟨v, hv, h0, -⟩ := exists_rounds_of_regular hx
  have hnan : Numeral.value? "NaN" = none := by cbv
  have hinf : Numeral.value? "Infinity" = none := by cbv
  have hninf : Numeral.value? "-Infinity" = none := by cbv
  have hzero : Numeral.value? "0" = some 0 := by cbv
  refine ⟨?_, ?_, ?_, ?_⟩ <;> intro h <;> simp_all

/-- The texts that are no numerals, and that of zeros, each say what they are the text of. -/
theorem special_texts (x : Double) :
    (realText x = "NaN" ↔ x.isNaN = true) ∧ (realText x = "0" ↔ x.IsZero) ∧
      (realText x = "Infinity" ↔ x.magnitude = .infinite ∧ x.negative = false) ∧
      (realText x = "-Infinity" ↔ x.magnitude = .infinite ∧ x.negative = true) := by
  rw [isNaN_iff]
  rcases x.kind_cases with h | h | h | h
  · simp [realText_of_nan h, h, IsZero]
  · cases hs : x.negative <;> simp [realText_of_infinite h, h, hs, IsZero]
  · have ht := realText_of_zero h
    obtain ⟨q, hq⟩ := id h
    simp [ht, h, hq]
  · obtain ⟨h1, h2, h3, h4⟩ := realText_ne_of_regular h
    obtain ⟨m, q, hq, hm⟩ := h
    simp [h1, h2, h3, h4, hq, hm, IsZero]

theorem eq_of_realText_eq (hn : x.magnitude ≠ .nan) (hz : ¬ x.IsZero)
    (h : realText x = realText y) : x = y := by
  obtain ⟨-, -, hinf, hninf⟩ := special_texts y
  rcases x.kind_cases with hx | hx | hx | hx
  · exact absurd hx hn
  · have ht := realText_of_infinite hx
    cases hs : x.negative with
    | false =>
      obtain ⟨hy, hsy⟩ := hinf.mp (by rw [← h, ht, hs]; rfl)
      exact ext_magnitude (hs.trans hsy.symm) (hx.trans hy.symm) hn
    | true =>
      obtain ⟨hy, hsy⟩ := hninf.mp (by rw [← h, ht, hs]; rfl)
      exact ext_magnitude (hs.trans hsy.symm) (hx.trans hy.symm) hn
  · exact absurd hx hz
  · obtain ⟨h1, h2, h3, h4⟩ := realText_ne_of_regular hx
    obtain ⟨v, hv, -, hrx⟩ := exists_rounds_of_regular hx
    rw [h] at h1 h2 h3 h4 hv
    rcases y.kind_cases with hy | hy | hy | hy
    · exact absurd (realText_of_nan hy) h1
    · have ht := realText_of_infinite hy
      split at ht
      · exact absurd ht h3
      · exact absurd ht h2
    · exact absurd (realText_of_zero hy) h4
    · obtain ⟨w, hw, -, hry⟩ := exists_rounds_of_regular hy
      cases hv.symm.trans hw
      exact hrx.unique hry

/-- The text of a double that is neither a NaN, an infinity nor a zero denotes a rational that
rounds to that double, bit for bit, and to no other. Texts tell all doubles apart but NaNs from
NaNs and zeros from zeros, and these and the infinities have texts of their own. -/
theorem realText_faithful :
    (∀ x : Double, x.IsRegular →
      ∃ v, Numeral.value? (realText x) = some v ∧ ∀ y, Rounds v y ↔ y = x) ∧
    (∀ x y : Double, x.isNaN = false → ¬ x.IsZero → realText x = realText y → x = y) ∧
    ∀ x : Double,
      (realText x = "NaN" ↔ x.isNaN = true) ∧ (realText x = "0" ↔ x.IsZero) ∧
      (realText x = "Infinity" ↔ x.magnitude = .infinite ∧ x.negative = false) ∧
      (realText x = "-Infinity" ↔ x.magnitude = .infinite ∧ x.negative = true) := by
  refine ⟨fun x hx => ?_, fun x y hn hz h => ?_, special_texts⟩
  · obtain ⟨v, hv, -, hr⟩ := exists_rounds_of_regular hx
    refine ⟨v, hv, fun y => ⟨fun hy => hy.unique hr, ?_⟩⟩
    rintro rfl
    exact hr
  · exact eq_of_realText_eq (by simp [← isNaN_iff, hn]) hz h

/-- The least normal double, a power of two. -/
theorem realText_faithful_leastNormal :
    (⟨0x0010000000000000⟩ : Double).IsRegular ∧
      (∃ v, Numeral.value? (realText ⟨0x0010000000000000⟩) = some v ∧
        ∀ y, Rounds v y ↔ y = ⟨0x0010000000000000⟩) ∧
      ∀ y, realText ⟨0x0010000000000000⟩ = realText y → ⟨0x0010000000000000⟩ = y := by
  have hm : (⟨0x0010000000000000⟩ : Double).magnitude = .finite 0x0010000000000000 (-1074) := by
    decide
  have hr : (⟨0x0010000000000000⟩ : Double).IsRegular := ⟨_, _, hm, by decide⟩
  have hn : (⟨0x0010000000000000⟩ : Double).isNaN = false := by decide
  have hz : ¬ (⟨0x0010000000000000⟩ : Double).IsZero := by simp [IsZero, hm]
  exact ⟨hr, realText_faithful.1 _ hr, fun y h => realText_faithful.2.1 _ y hn hz h⟩

end ConsoleHost
