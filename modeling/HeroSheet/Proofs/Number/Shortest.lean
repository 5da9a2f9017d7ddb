import HeroSheet.Proofs.Number.Ratio

namespace HeroSheet

namespace Binary64

theorem ofUnits_zero (negative : Bool) (den : Nat) : ofUnits negative 0 den = .finite negative .zero := by
  rw [ofUnits_congr negative ((nearestUnits_zero den).trans (nearestUnits_zero 1).symm)]
  exact ofUnits_magnitude negative .zero

theorem ofDecimal_zero (negative : Bool) (exponent : Int) :
    ofDecimal negative 0 exponent = .finite negative .zero := by
  rw [ofDecimal_eq, Nat.zero_mul, Nat.zero_mul, ofUnits_zero]

private theorem ofDecimal_large (negative : Bool) {digits : Nat} {exponent : Int} (nonzero : digits ≠ 0)
    (large : 400 < exponent) : ofDecimal negative digits exponent = .infinite negative := by
  rw [ofDecimal_eq]
  have whole : (-exponent).toNat = 0 := by omega
  have tens : power 2 1024 ≤ power 10 exponent.toNat := by
    have start : power 2 1024 ≤ power 10 401 := by decide +kernel
    exact Nat.le_trans start (power_le_power (by decide) (by omega))
  have size : overflowUnits ≤ digits * power 10 exponent.toNat * unitsPerOne := by
    calc overflowUnits = 1 * power 2 1024 * unitsPerOne := by
          rw [Nat.one_mul, overflowUnits, unitsPerOne, Nat.add_comm, power_add]
      _ ≤ digits * power 10 exponent.toNat * unitsPerOne :=
          Nat.mul_le_mul_right _ (Nat.mul_le_mul (Nat.one_le_iff_ne_zero.mpr nonzero) tens)
  have unbounded : ¬ nearestUnits (digits * power 10 exponent.toNat * unitsPerOne) 1 < overflowUnits :=
    Nat.not_lt.mpr (power_le_nearestUnits size)
  rw [whole]
  exact dif_neg unbounded

private theorem ofDecimal_small (negative : Bool) {digits : Nat} {exponent : Int}
    (small : exponent < -(401 + digits.log2 : Int)) :
    ofDecimal negative digits exponent = .finite negative .zero := by
  rw [ofDecimal_eq]
  have whole : exponent.toNat = 0 := by omega
  have places : 402 + digits.log2 ≤ (-exponent).toNat := by omega
  have below : digits < power 2 (digits.log2 + 1) := Nat.lt_log2_self
  have tens : power 2 (digits.log2 + 1) * (2 * unitsPerOne) ≤ power 10 (-exponent).toNat := by
    have start : 2 * (2 * unitsPerOne) ≤ power 10 402 := by decide +kernel
    calc power 2 (digits.log2 + 1) * (2 * unitsPerOne)
        = 2 * (2 * unitsPerOne) * power 2 digits.log2 := by
          rw [power_add, show power 2 1 = 2 from rfl]
          generalize unitsPerOne = one
          ring
      _ ≤ power 10 402 * power 10 digits.log2 :=
          Nat.mul_le_mul start (Nat.pow_le_pow_left (by decide) _)
      _ = power 10 (402 + digits.log2) := (power_add 10 402 digits.log2).symm
      _ ≤ power 10 (-exponent).toNat := power_le_power (by decide) places
  have tiny : 2 * (digits * power 10 0 * unitsPerOne) < power 10 (-exponent).toNat := by
    refine Nat.lt_of_lt_of_le ?_ tens
    calc 2 * (digits * power 10 0 * unitsPerOne) = digits * (2 * unitsPerOne) := by
          rw [show power 10 0 = 1 from rfl]
          generalize unitsPerOne = one
          ring
      _ < power 2 (digits.log2 + 1) * (2 * unitsPerOne) :=
          Nat.mul_lt_mul_of_pos_right below (by have := unitsPerOne_pos; omega)
  rw [whole]
  refine (ofUnits_congr negative ?_).trans (ofUnits_zero negative 1)
  rw [nearestUnits_eq_zero tiny, nearestUnits_zero]

end Binary64

namespace Decimal

/-- Exponents far out of range only save work. -/
theorem toBinary64_eq (negative : Bool) (d : Decimal) :
    d.toBinary64 negative = .ofDecimal negative d.digits d.exponent := by
  unfold toBinary64
  split
  · rename_i none
    rw [none, Binary64.ofDecimal_zero]
  · rename_i nonzero
    split
    · rename_i large
      rw [Binary64.ofDecimal_large negative nonzero large]
    · split
      · rename_i small
        rw [Binary64.ofDecimal_small negative small]
      · rfl

/-- Zeros at the end of the digits count in the exponent. -/
theorem toBinary64_shift (negative : Bool) (digits zeros : Nat) (exponent : Int) :
    toBinary64 negative ⟨digits * 10 ^ zeros, exponent⟩ = toBinary64 negative ⟨digits, exponent + zeros⟩ := by
  rw [toBinary64_eq, toBinary64_eq]
  simp only
  induction zeros generalizing exponent with
  | zero => simp
  | succ zeros ih =>
    rw [pow_succ, ← Nat.mul_assoc, Binary64.ofDecimal_shift, ih]
    congr 1
    omega

private theorem toBinary64_exact (m : Magnitude) : (exact m).toBinary64 false = .finite false m := by
  rw [toBinary64_eq, Binary64.ofDecimal_eq, ← Binary64.ofUnits_magnitude]
  refine Binary64.ofUnits_eq_of_cross false (power_pos (by decide) _) (by decide) ?_
  simp only [exact]
  have places : (- -(binaryPlaces : Int)).toNat = binaryPlaces := by omega
  have whole : (-(binaryPlaces : Int)).toNat = 0 := by omega
  have tens : power 5 binaryPlaces * unitsPerOne = power 10 binaryPlaces := by
    rw [unitsPerOne, power_mul]
  rw [places, whole, ← tens, show power 10 0 = 1 from rfl, Nat.mul_one, Nat.mul_one, Nat.mul_assoc]

private theorem toBinary64_trimmed (negative : Bool) (d : Decimal) :
    d.trimmed.toBinary64 negative = d.toBinary64 negative := by
  fun_induction trimmed d with
  | case1 d ends ih =>
    have whole : d.digits / 10 * 10 = d.digits := Nat.div_mul_cancel (Nat.dvd_of_mod_eq_zero ends.2)
    have shifted := toBinary64_shift negative (d.digits / 10) 1 d.exponent
    rw [pow_one, whole] at shifted
    rw [ih]
    exact shifted.symm
  | case2 d done => rfl

/-- The shortest decimal of a magnitude reads back as the magnitude. -/
theorem toBinary64_shortest (m : Magnitude) : (shortest m).toBinary64 false = .finite false m := by
  unfold shortest
  simp only
  rw [toBinary64_trimmed]
  cases found : (List.range 17).findSome? fun count =>
      (neighbours m (pointPlace m - (count + 1 : Nat))).find? fun d =>
        decide (d.toBinary64 false = .finite false m) with
  | none => exact toBinary64_exact m
  | some d =>
    obtain ⟨count, _, here⟩ := List.exists_of_findSome?_eq_some found
    simpa using List.find?_some here

end Decimal

end HeroSheet
