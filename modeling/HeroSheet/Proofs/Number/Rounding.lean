import HeroSheet.Proofs.Number.Ratio

/-!
Rounding keeps order. A ratio that is not above another one does not have a nearest number above that of the other:
with the same number of dropped places, whole parts decide, and behind them the rest; with fewer of them, a power of
two stands between both.
-/

namespace HeroSheet

/-- The binary places that rounding drops. -/
def droppedPlaces (num den : Nat) : Nat := (num / den).log2 + 1 - 53

section Bounds

variable (num den : Nat)

/-- The nearest number is one of the two neighbours that have 53 significant bits. -/
theorem nearestUnits_bounds :
    num / (den * power 2 (droppedPlaces num den)) * power 2 (droppedPlaces num den) ≤ nearestUnits num den ∧
      nearestUnits num den ≤
        (num / (den * power 2 (droppedPlaces num den)) + 1) * power 2 (droppedPlaces num den) := by
  unfold nearestUnits droppedPlaces
  simp only
  split
  · exact ⟨Nat.mul_le_mul_right _ (Nat.le_succ _), Nat.le_refl _⟩
  · exact ⟨Nat.le_refl _, Nat.mul_le_mul_right _ (Nat.le_succ _)⟩

private theorem nearestUnits_le_power : nearestUnits num den ≤ power 2 (53 + droppedPlaces num den) := by
  have below : num / (den * power 2 (droppedPlaces num den)) < power 2 53 := significand_lt num den
  rw [power_add]
  exact Nat.le_trans (nearestUnits_bounds num den).2 (Nat.mul_le_mul_right _ below)

variable {num den}

private theorem power_le_nearestUnits_of_dropped (drops : 0 < droppedPlaces num den) :
    power 2 (52 + droppedPlaces num den) ≤ nearestUnits num den := by
  have large : 52 + droppedPlaces num den = (num / den).log2 := by
    unfold droppedPlaces at drops ⊢
    omega
  have nonzero : num / den ≠ 0 := by
    intro zero
    rw [zero, Nat.log2_zero] at large
    omega
  have most : power 2 52 ≤ num / (den * power 2 (droppedPlaces num den)) := by
    rw [← Nat.div_div_eq_div_mul, Nat.le_div_iff_mul_le (power_two_pos _), ← power_add, large]
    exact Nat.log2_self_le nonzero
  rw [power_add]
  exact Nat.le_trans (Nat.mul_le_mul_right _ most) (nearestUnits_bounds num den).1

end Bounds

section Order

variable {num other den own : Nat}

private theorem droppedPlaces_mono (le : num ≤ other) : droppedPlaces num den ≤ droppedPlaces other den := by
  have whole : (num / den).log2 ≤ (other / den).log2 := by
    rcases Nat.eq_zero_or_pos (num / den) with zero | positive
    · rw [zero, Nat.log2_zero]
      exact Nat.zero_le _
    · have quotient : num / den ≤ other / den := Nat.div_le_div_right le
      have nonzero : other / den ≠ 0 := by omega
      exact (Nat.le_log2 nonzero).mpr (Nat.le_trans (Nat.log2_self_le (Nat.ne_of_gt positive)) quotient)
  unfold droppedPlaces
  omega

/-- With the same places dropped, whole parts decide, and behind them the rest. -/
theorem nearestUnits_mono_of_dropped (le : num ≤ other) (same : droppedPlaces num den = droppedPlaces other den) :
    nearestUnits num den ≤ nearestUnits other den := by
  have whole : num / (den * power 2 (droppedPlaces other den)) ≤ other / (den * power 2 (droppedPlaces other den)) :=
    Nat.div_le_div_right le
  rcases Nat.lt_or_eq_of_le whole with lower | level
  · have front := (nearestUnits_bounds num den).2
    rw [same] at front
    exact Nat.le_trans front (Nat.le_trans (Nat.mul_le_mul_right _ lower) (nearestUnits_bounds other den).1)
  · have rest : num % (den * power 2 (droppedPlaces other den)) ≤ other % (den * power 2 (droppedPlaces other den)) := by
      have first := Nat.div_add_mod num (den * power 2 (droppedPlaces other den))
      have second := Nat.div_add_mod other (den * power 2 (droppedPlaces other den))
      rw [level] at first
      omega
    unfold droppedPlaces at same level rest
    unfold nearestUnits
    simp only [same, level]
    -- the whole parts are one number, so a tie that goes up for the smaller rest goes up for the larger one too
    split
    · rename_i up
      rw [if_pos (by omega)]
    · split
      · exact Nat.mul_le_mul_right _ (Nat.le_succ _)
      · exact Nat.le_refl _

/-- With fewer places dropped, a power of two stands between the nearest numbers. -/
theorem nearestUnits_mono_num (le : num ≤ other) : nearestUnits num den ≤ nearestUnits other den := by
  have dropped : droppedPlaces num den ≤ droppedPlaces other den := droppedPlaces_mono le
  rcases Nat.lt_or_eq_of_le dropped with fewer | same
  · calc nearestUnits num den
        ≤ power 2 (53 + droppedPlaces num den) := nearestUnits_le_power num den
      _ ≤ power 2 (52 + droppedPlaces other den) := power_le_power (by decide) (by omega)
      _ ≤ nearestUnits other den := power_le_nearestUnits_of_dropped (by omega)
  · exact nearestUnits_mono_of_dropped le same

/-- Nearest numbers are in the order of the ratios. -/
private theorem nearestUnits_mono (positive : 0 < den) (above : 0 < own) (le : num * own ≤ other * den) :
    nearestUnits num den ≤ nearestUnits other own := by
  rw [← nearestUnits_scale num den above, ← nearestUnits_scale other own positive, Nat.mul_comm den own]
  exact nearestUnits_mono_num le

end Order

namespace Binary64

variable {m size : Magnitude} {digits other : Nat} {exponent own : Int}

theorem lt_finite_iff : (finite false m).lt (finite false size) ↔ m.units < size.units := by
  rw [lt, decide_eq_true_iff, signedUnits, signedUnits, if_neg Bool.false_ne_true, if_neg Bool.false_ne_true,
    Int.ofNat_lt]

theorem units_of_ofUnits {num den : Nat} {negative : Bool} (eq : ofUnits negative num den = .finite negative m) :
    m.units = nearestUnits num den := by
  unfold ofUnits at eq
  split at eq
  · exact congrArg Magnitude.units (finite.inj eq).2.symm
  · cases eq

/-- Decimals in order have nearest numbers in order. -/
theorem ofDecimal_mono (first : ofDecimal false digits exponent = .finite false m)
    (second : ofDecimal false other own = .finite false size)
    (le : digits * power 10 exponent.toNat * power 10 (-own).toNat ≤
      other * power 10 own.toNat * power 10 (-exponent).toNat) : m.units ≤ size.units := by
  rw [ofDecimal_eq] at first second
  rw [units_of_ofUnits first, units_of_ofUnits second]
  refine nearestUnits_mono (power_pos (by decide) _) (power_pos (by decide) _) ?_
  rw [Nat.mul_right_comm, Nat.mul_right_comm _ unitsPerOne]
  exact Nat.mul_le_mul_right unitsPerOne le

end Binary64

end HeroSheet
