import ConsoleHost.Proofs.Double.Rounding

/-! Order: rounding keeps it, and a double without its sign is worth its absolute value. -/
namespace ConsoleHost.Double

variable {x : Double} {v w : ℚ} {m n : Nat} {p q : Int}

/-- A rational does not round to less than a smaller one does. -/
theorem Nearest.mono (hm : Nearest v m q) (hn : Nearest w n p) (hcm : Canonical m q)
    (hcn : Canonical n p) (hvw : v ≤ w) : (m * 2 ^ q : ℚ) ≤ n * 2 ^ p := by
  by_contra hlt
  rw [not_le] at hlt
  obtain ⟨hv, -⟩ := hm n p hcn.lt hcn.lowest
  obtain ⟨hw, -⟩ := hn m q hcm.lt hcm.lowest
  rw [abs_sub_le_iff_of_gt hlt] at hv
  rw [abs_sub_le_iff_of_lt hlt] at hw
  -- both lie in the middle, where a rational rounds to one double only
  obtain rfl : v = w := by linarith
  exact hn.not_lt hm hcn hcm hlt

/-! ### Doubles without their signs -/

/-- The same double without its sign. -/
def abs (x : Double) : Double := ⟨.ofNat (x.bits.toNat % signWeight)⟩

theorem toNat_bits_abs (x : Double) : x.abs.bits.toNat = x.bits.toNat % signWeight := by
  have hlt : x.bits.toNat % signWeight < 2 ^ 64 :=
    Nat.lt_of_le_of_lt (Nat.mod_le _ _) x.bits.toNat_lt
  exact (UInt64.toNat_ofNat').trans (Nat.mod_eq_of_lt hlt)

@[simp] theorem negative_abs (x : Double) : x.abs.negative = false := by
  rw [negative, toNat_bits_abs, Nat.div_eq_of_lt (Nat.mod_lt _ (by decide))]
  rfl

@[simp] theorem magnitude_abs (x : Double) : x.abs.magnitude = x.magnitude := by
  have hexponent : x.abs.exponentField = x.exponentField := by
    rw [exponentField, exponentField, toNat_bits_abs]
    unfold signWeight leadingOne
    omega
  have hfraction : x.abs.fraction = x.fraction := by
    rw [fraction, fraction, toNat_bits_abs]
    unfold signWeight leadingOne
    omega
  rw [magnitude, magnitude, hexponent, hfraction]

theorem value_of_magnitude (hx : x.magnitude = .finite m q) : x.value = x.sign * (m * 2 ^ q) := by
  rw [value, hx]

theorem abs_value (hx : x.magnitude = .finite m q) : |x.value| = m * 2 ^ q := by
  rw [value_of_magnitude hx, abs_sign_mul, abs_of_nonneg (by positivity)]

theorem value_abs (hx : x.magnitude = .finite m q) : x.abs.value = |x.value| := by
  rw [abs_value hx, value_of_magnitude ((magnitude_abs x).trans hx), sign, negative_abs]
  simp

/-- Only a negative value has a sign. -/
theorem value_neg_iff (hx : x.magnitude = .finite m q) (hm : m ≠ 0) :
    x.value < 0 ↔ x.negative = true := by
  rw [value_of_magnitude hx]
  exact sign_mul_neg_iff x (by positivity)

end ConsoleHost.Double
