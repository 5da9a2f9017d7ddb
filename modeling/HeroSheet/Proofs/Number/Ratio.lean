import HeroSheet.Number.Decimal
import Mathlib.Tactic.Ring

namespace HeroSheet

theorem power_pos {base : Nat} (positive : 0 < base) (exponent : Nat) : 0 < power base exponent :=
  Nat.pow_pos positive

theorem power_le_power {base m n : Nat} (positive : 0 < base) (le : m ≤ n) : power base m ≤ power base n :=
  Nat.pow_le_pow_right positive le

theorem power_lt_power {base m n : Nat} (large : 1 < base) (lt : m < n) : power base m < power base n :=
  Nat.pow_lt_pow_right large lt

theorem power_mul (base own exponent : Nat) :
    power base exponent * power own exponent = power (base * own) exponent :=
  (Nat.mul_pow base own exponent).symm

theorem nearestUnits_scale (num den : Nat) {k : Nat} (positive : 0 < k) :
    nearestUnits (num * k) (den * k) = nearestUnits num den := by
  have whole : num * k / (den * k) = num / den := Nat.mul_div_mul_right num den positive
  unfold nearestUnits
  simp only [whole]
  have step : den * k * power 2 ((num / den).log2 + 1 - 53) =
      den * power 2 ((num / den).log2 + 1 - 53) * k := by ring
  rw [step, Nat.mul_div_mul_right _ _ positive, Nat.mul_mod_mul_right]
  have above : ∀ step rest : Nat, step * k < 2 * (rest * k) ↔ step < 2 * rest := by
    intro step rest
    rw [← Nat.mul_assoc, Nat.mul_lt_mul_right positive]
  have tied : ∀ step rest : Nat, 2 * (rest * k) = step * k ↔ 2 * rest = step := by
    intro step rest
    rw [← Nat.mul_assoc, Nat.mul_left_inj (Nat.ne_of_gt positive)]
  simp only [above, tied]

theorem nearestUnits_zero (den : Nat) : nearestUnits 0 den = 0 := by
  unfold nearestUnits
  simp only [Nat.zero_div, Nat.zero_mod, Nat.zero_mul, Nat.mul_zero]
  split
  · rename_i up
    omega
  · rfl

/-- Less than half a unit is nearest to nothing. -/
theorem nearestUnits_eq_zero {num den : Nat} (small : 2 * num < den) : nearestUnits num den = 0 := by
  have none : num / den = 0 := Nat.div_eq_of_lt (by omega)
  have whole : den * power 2 0 = den := Nat.mul_one den
  unfold nearestUnits
  simp only [none, Nat.log2_zero, Nat.zero_add, Nat.reduceSub, whole]
  rw [Nat.mod_eq_of_lt (by omega), if_neg (by omega), Nat.zero_mul]

/-- A power of two at or below a whole number is at or below its nearest. -/
theorem power_le_nearestUnits {num k : Nat} (large : power 2 k ≤ num) : power 2 k ≤ nearestUnits num 1 := by
  have nonzero : num ≠ 0 := Nat.ne_of_gt (Nat.lt_of_lt_of_le (power_two_pos k) large)
  have top : k ≤ num.log2 := (Nat.le_log2 nonzero).mpr large
  have shifted : num.log2 + 1 - 53 ≤ num.log2 := by omega
  have below : power 2 num.log2 ≤ num / power 2 (num.log2 + 1 - 53) * power 2 (num.log2 + 1 - 53) := by
    obtain ⟨count, eq⟩ := power_dvd_power 2 shifted
    have most : count ≤ num / power 2 (num.log2 + 1 - 53) := by
      refine (Nat.le_div_iff_mul_le (power_two_pos _)).mpr ?_
      rw [Nat.mul_comm, ← eq]
      exact Nat.log2_self_le nonzero
    rw [eq, Nat.mul_comm]
    exact Nat.mul_le_mul_right _ most
  have start : power 2 k ≤ power 2 num.log2 := power_le_power (by decide) top
  unfold nearestUnits
  simp only [Nat.div_one, Nat.one_mul]
  split
  · exact Nat.le_trans start (Nat.le_trans below (Nat.mul_le_mul_right _ (Nat.le_succ _)))
  · exact Nat.le_trans start below

namespace Binary64

theorem ofUnits_congr {num den other own : Nat} (negative : Bool)
    (same : nearestUnits num den = nearestUnits other own) :
    ofUnits negative num den = ofUnits negative other own := by
  unfold ofUnits
  simp only [same]

theorem ofUnits_scale (negative : Bool) (num den : Nat) {k : Nat} (positive : 0 < k) :
    ofUnits negative (num * k) (den * k) = ofUnits negative num den :=
  ofUnits_congr negative (nearestUnits_scale num den positive)

/-- Ratios of one value have one nearest number. -/
theorem ofUnits_eq_of_cross {num den other own : Nat} (negative : Bool) (positive : 0 < den)
    (above : 0 < own) (cross : num * own = other * den) :
    ofUnits negative num den = ofUnits negative other own := by
  rw [← ofUnits_scale negative num den above, cross, Nat.mul_comm den own,
    ofUnits_scale negative other own positive]

/-- A magnitude is its own nearest. -/
theorem ofUnits_magnitude (negative : Bool) (m : Magnitude) :
    ofUnits negative m.units 1 = .finite negative m := by
  unfold ofUnits
  simp only [m.nearest]
  exact dif_pos m.bounded

theorem ofDecimal_eq (negative : Bool) (digits : Nat) (exponent : Int) :
    ofDecimal negative digits exponent =
      ofUnits negative (digits * power 10 exponent.toNat * unitsPerOne) (power 10 (-exponent).toNat) := by
  cases exponent with
  | ofNat e =>
    have whole : (-Int.ofNat e).toNat = 0 := by simp
    rw [whole]
    rfl
  | negSucc e =>
    have none : digits * power 10 (Int.negSucc e).toNat = digits := Nat.mul_one digits
    rw [none]
    rfl

private theorem ofDecimal_eq_of_cross {digits other : Nat} {exponent own : Int} (negative : Bool)
    (cross : digits * power 10 exponent.toNat * power 10 (-own).toNat =
      other * power 10 own.toNat * power 10 (-exponent).toNat) :
    ofDecimal negative digits exponent = ofDecimal negative other own := by
  rw [ofDecimal_eq, ofDecimal_eq]
  refine ofUnits_eq_of_cross negative (power_pos (by decide) _) (power_pos (by decide) _) ?_
  rw [Nat.mul_right_comm, cross, Nat.mul_right_comm]

/-- A zero more at the end of the digits, and one less in the exponent. -/
theorem ofDecimal_shift (negative : Bool) (digits : Nat) (exponent : Int) :
    ofDecimal negative (digits * 10) exponent = ofDecimal negative digits (exponent + 1) := by
  refine ofDecimal_eq_of_cross negative ?_
  have ten : power 10 1 = 10 := rfl
  have places : 1 + exponent.toNat + (-(exponent + 1)).toNat =
      (exponent + 1).toNat + (-exponent).toNat := by omega
  calc digits * 10 * power 10 exponent.toNat * power 10 (-(exponent + 1)).toNat
      = digits * (power 10 1 * power 10 exponent.toNat * power 10 (-(exponent + 1)).toNat) := by
        rw [ten]; ring
    _ = digits * (power 10 (exponent + 1).toNat * power 10 (-exponent).toNat) := by
        rw [← power_add, ← power_add, ← power_add, places]
    _ = digits * power 10 (exponent + 1).toNat * power 10 (-exponent).toNat := by ring

end Binary64

end HeroSheet
