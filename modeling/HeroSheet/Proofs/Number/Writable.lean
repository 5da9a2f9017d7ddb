import HeroSheet.Number.Numeral
import HeroSheet.Number.Power

namespace HeroSheet

/-- A number lies between the powers of ten that its digits count. -/
theorem naturalText_bounds (n : Nat) :
    n < power 10 (naturalText n).length ∧ (0 < n → power 10 (naturalText n).length ≤ power 10 1 * n) := by
  induction n using Nat.strongRecOn with
  | ind n ih =>
    by_cases small : n < 10
    · rw [naturalText, Nat.toDigits_of_lt_base small, List.length_singleton]
      refine ⟨small, fun positive => ?_⟩
      exact Nat.le_mul_of_pos_right _ positive
    · have split := Nat.toDigits_of_base_le (b := 10) (by decide) (Nat.le_of_not_lt small)
      have length : (naturalText n).length = (naturalText (n / 10)).length + 1 := by
        rw [naturalText, split, List.length_append, List.length_singleton, naturalText]
      obtain ⟨above, below⟩ := ih (n / 10) (by omega)
      have least := below (by omega)
      have ten : power 10 1 = 10 := rfl
      rw [length, power_add, ten]
      rw [ten] at least
      exact ⟨by omega, fun _ => by omega⟩

private theorem length_naturalText_le_iff {n k : Nat} (some : 0 < k) : (naturalText n).length ≤ k ↔ n < power 10 k := by
  obtain ⟨above, below⟩ := naturalText_bounds n
  have ten : 0 < 10 := by decide
  constructor
  · intro short
    exact Nat.lt_of_lt_of_le above (Nat.pow_le_pow_right ten short)
  · intro small
    refine Nat.le_of_not_lt fun long => ?_
    rcases Nat.eq_zero_or_pos n with rfl | positive
    · exact Nat.not_le_of_lt long some
    · have further : power 10 (1 + k) ≤ power 10 (naturalText n).length :=
        Nat.pow_le_pow_right ten (by omega)
      rw [power_add] at further
      have reached := Nat.le_of_mul_le_mul_left (Nat.le_trans further (below positive)) (Nat.pow_pos ten)
      exact Nat.not_le_of_lt small reached

/-- An integer may be written exactly below the power of ten that the limit of digits counts. -/
theorem isWritable_iff {n : Int} : isWritable n = true ↔ n.natAbs < power 10 maxIntegerDigits := by
  unfold isWritable
  rw [decide_eq_true_iff]
  exact length_naturalText_le_iff (by decide)

end HeroSheet
