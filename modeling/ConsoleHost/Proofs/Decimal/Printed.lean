import ConsoleHost.Proofs.Decimal.Numeral

/-! Printed decimals: each of the four layouts is a numeral for the decimal itself. -/
namespace ConsoleHost

open Numeral

namespace Layout

variable {ds : List Char} {point e : Int} {d : Decimal}

theorem toList_zeros (n : Int) : (zeros n).toList = List.replicate n.toNat '0' := by
  rw [zeros, String.toList_ofList]

/-- Before the digits: a zero, a point and more zeros. -/
theorem toList_positional_of_nonpos (h : point ≤ 0) :
    (printed.positional ds point).toList =
      ['0'] ++ '.' :: (List.replicate (-point).toNat '0' ++ ds) := by
  rw [positional, if_pos h]
  simp [toList_zeros]

/-- After the digits: zeros up to the point. -/
theorem toList_positional_of_length_le (h0 : ¬ point ≤ 0) (h : (ds.length : Int) ≤ point) :
    (printed.positional ds point).toList = ds ++ List.replicate (point - ds.length).toNat '0' := by
  rw [positional, if_neg h0, if_pos h]
  simp [toList_zeros, printed]

/-- Among the digits: a point. -/
theorem toList_positional_of_lt (h0 : ¬ point ≤ 0) (h : ¬ (ds.length : Int) ≤ point) :
    (printed.positional ds point).toList = ds.take point.toNat ++ '.' :: ds.drop point.toNat := by
  rw [positional, if_neg h0, if_neg h]
  simp

theorem toList_scientific (c : Char) (ds : List Char) (e : Int) :
    (printed.scientific (c :: ds) e).toList =
      (c :: (if ds.isEmpty then [] else '.' :: ds)) ++
        'e' :: (if e < 0 then '-' else '+') :: Nat.toDigits 10 e.natAbs := by
  unfold scientific
  simp only [printed, Nat.toString_eq_ofList_toDigits]
  split <;> split <;> simp_all

/-- A positional text is a numeral for its digits, with the point where it was to be. -/
theorem fixed?_positional (h : Digits ds) (hne : ds ≠ []) :
    fixed? (printed.positional ds point).toList =
      some ((Nat.ofDigitChars 10 ds 0 : ℚ) * 10 ^ (point - ds.length)) := by
  have hten : (10 : ℚ) ≠ 0 := by norm_num
  by_cases h0 : point ≤ 0
  · obtain ⟨n, hn⟩ : ∃ n : Nat, point = -n := ⟨(-point).toNat, by omega⟩
    have hzero : Digits ['0'] := digits_zeros 1
    have hz := (digits_zeros n).append h
    rw [toList_positional_of_nonpos h0, show (-point).toNat = n by omega,
      fixed?_point hzero hz (by simp) (by simp [hne])]
    have hval : Nat.ofDigitChars 10 (['0'] ++ (List.replicate n '0' ++ ds)) 0 =
        Nat.ofDigitChars 10 ds 0 := by
      rw [Nat.ofDigitChars_append, Nat.ofDigitChars_append, Nat.ofDigitChars_replicate_zero]
      simp [Nat.ofDigitChars_cons]
    rw [hval, hn, show -(n : Int) - ds.length = -((n + ds.length : Nat) : Int) by push_cast; ring,
      zpow_neg, zpow_natCast]
    simp [div_eq_mul_inv]
  · by_cases hlen : (ds.length : Int) ≤ point
    · obtain ⟨n, hn⟩ : ∃ n : Nat, point - ds.length = n := ⟨(point - ds.length).toNat, by omega⟩
      rw [toList_positional_of_length_le h0 hlen, hn, Int.toNat_natCast,
        fixed?_digits (h.append (digits_zeros n)) (by simp [hne]), Nat.ofDigitChars_append,
        Nat.ofDigitChars_replicate_zero, zpow_natCast]
      push_cast
      ring_nf
    · obtain ⟨n, hn⟩ : ∃ n : Nat, point = n := ⟨point.toNat, by omega⟩
      have hlt : n < ds.length := by omega
      rw [toList_positional_of_lt h0 hlen, hn, Int.toNat_natCast,
        fixed?_point (fun c hc => h c (List.mem_of_mem_take hc))
          (fun c hc => h c (List.mem_of_mem_drop hc)) (by simp [hne]; omega) (by simp; omega),
        List.take_append_drop, List.length_drop,
        show (n : Int) - ds.length = -((ds.length - n : Nat) : Int) by omega, zpow_neg, zpow_natCast,
        div_eq_mul_inv]

theorem noExponent_positional (h : Digits ds) :
    ∀ x ∈ (printed.positional ds point).toList, decide (x ≠ 'e') = true := by
  have hz (n : Nat) := (digits_zeros n).ne (c := 'e') rfl
  have hd := h.ne (c := 'e') rfl
  intro x hx
  by_cases h0 : point ≤ 0
  · rw [toList_positional_of_nonpos h0] at hx
    simp only [List.mem_append, List.mem_cons, List.not_mem_nil, or_false] at hx
    rcases hx with rfl | rfl | hx | hx
    · rfl
    · rfl
    · exact hz _ x hx
    · exact hd x hx
  · by_cases hlen : (ds.length : Int) ≤ point
    · rw [toList_positional_of_length_le h0 hlen, List.mem_append] at hx
      rcases hx with hx | hx
      · exact hd x hx
      · exact hz _ x hx
    · rw [toList_positional_of_lt h0 hlen] at hx
      simp only [List.mem_append, List.mem_cons] at hx
      rcases hx with hx | rfl | hx
      · exact hd x (List.mem_of_mem_take hx)
      · rfl
      · exact hd x (List.mem_of_mem_drop hx)

/-- A scientific text is a numeral for its digits, of which one stands before the point. -/
theorem unsigned?_scientific (h : Digits ds) (hne : ds ≠ []) :
    unsigned? (printed.scientific ds e).toList =
      some ((Nat.ofDigitChars 10 ds 0 : ℚ) * 10 ^ (e + 1 - ds.length)) := by
  obtain ⟨c, ds, rfl⟩ := List.exists_cons_of_ne_nil hne
  have hc : Digits [c] := fun x hx => h x (by simp_all)
  have hds : Digits ds := fun x hx => h x (List.mem_cons_of_mem _ hx)
  have hnc := hc.ne (c := '.') rfl c (by simp)
  rw [toList_scientific]
  cases ds with
  | nil =>
    rw [if_pos List.isEmpty_nil, Numeral.unsigned?_scientific (hc.ne rfl) (by simp_all)
      (fixed?_digits hc (by simp))]
    simp
  | cons b ds =>
    have hmantissa := fixed?_point hc hds (by simp) (by simp)
    have hnone : ∀ x ∈ [c] ++ '.' :: b :: ds, decide (x ≠ 'e') = true := by
      intro x hx
      simp only [List.mem_append, List.mem_cons] at hx
      rcases hx with hx | rfl | hx
      · exact hc.ne rfl x (by simpa using hx)
      · rfl
      · exact hds.ne rfl x (by simpa using hx)
    have hv := Numeral.unsigned?_scientific (e := e) hnone (by simp_all) hmantissa
    rw [show e + 1 - ((c :: b :: ds).length : Int) = e - (b :: ds).length by simp,
      zpow_sub₀ (by norm_num), zpow_natCast, ← mul_div_assoc, ← div_mul_eq_mul_div]
    exact hv

/-- The text of a decimal is a numeral for it. -/
theorem unsigned?_decimal (d : Decimal) :
    unsigned? (printed.decimal d).toList = some d.value := by
  have hd := digits_toDigits d.digits
  have hne : Nat.toDigits 10 d.digits ≠ [] := Nat.toDigits_ne_nil
  have hval : Nat.ofDigitChars 10 (Nat.toDigits 10 d.digits) 0 = d.digits :=
    Nat.ofDigitChars_ten_toDigits
  unfold decimal
  simp only [Nat.toString_eq_ofList_toDigits, String.toList_ofList]
  split
  · rw [unsigned?_fixed (noExponent_positional hd), fixed?_positional hd hne, hval,
      add_sub_cancel_left, Decimal.value]
  · rw [unsigned?_scientific hd hne, hval, sub_add_cancel, add_sub_cancel_left, Decimal.value]

end Layout
end ConsoleHost
