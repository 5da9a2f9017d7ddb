import HeroSheet.Proofs.Number.Rounding
import HeroSheet.Proofs.Number.Writable
import HeroSheet.Proofs.Number.Written

/-!
Where numbers are written without an exponent. The digits of the shortest decimal tell between which powers of ten it
lies, and rounding keeps that order: the point of a magnitude stands behind its third zero at the latest exactly from
one ten-thousandth on, and only whole numbers have a point that stands too far back.
-/

namespace HeroSheet

namespace Magnitude

variable {m size : Magnitude} {k : Int}

private theorem ext_units (same : m.units = size.units) : m = size := by
  cases m
  cases size
  cases same
  rfl

theorem ofDecimal_shortest (m : Magnitude) :
    Binary64.ofDecimal false (Decimal.shortest m).digits (Decimal.shortest m).exponent = .finite false m := by
  rw [← Decimal.toBinary64_eq]
  exact Decimal.toBinary64_shortest m

private theorem digits_shortest_pos (nonzero : m.units ≠ 0) : 0 < (Decimal.shortest m).digits := by
  refine Nat.pos_of_ne_zero fun none => nonzero ?_
  have written := ofDecimal_shortest m
  rw [none, Binary64.ofDecimal_zero] at written
  rw [← (Binary64.finite.inj written).2]
  rfl

/-- A magnitude whose point stands no further back than that of a power of ten is at most that power. -/
theorem units_le_of_place_le (ten : Binary64.ofDecimal false 1 k = .finite false size) (front : m.place ≤ k) :
    m.units ≤ size.units := by
  refine Binary64.ofDecimal_mono (ofDecimal_shortest m) ten ?_
  unfold place at front
  generalize Decimal.shortest m = d at front ⊢
  have above := Nat.le_of_lt (naturalText_bounds d.digits).1
  calc d.digits * power 10 d.exponent.toNat * power 10 (-k).toNat
      ≤ power 10 (naturalText d.digits).length * power 10 d.exponent.toNat * power 10 (-k).toNat :=
        Nat.mul_le_mul_right _ (Nat.mul_le_mul_right _ above)
    _ = power 10 ((naturalText d.digits).length + d.exponent.toNat + (-k).toNat) := by rw [← power_add, ← power_add]
    _ ≤ power 10 (k.toNat + (-d.exponent).toNat) := power_le_power (by decide) (by omega)
    _ = 1 * power 10 k.toNat * power 10 (-d.exponent).toNat := by rw [power_add, Nat.one_mul]

/-- A magnitude whose point stands further back than that of a power of ten is at least that power. -/
theorem units_le_of_lt_place (ten : Binary64.ofDecimal false 1 k = .finite false size) (nonzero : m.units ≠ 0)
    (back : k < m.place) : size.units ≤ m.units := by
  have positive := digits_shortest_pos nonzero
  refine Binary64.ofDecimal_mono ten (ofDecimal_shortest m) ?_
  unfold place at back
  generalize Decimal.shortest m = d at back positive ⊢
  have below := (naturalText_bounds d.digits).2 positive
  refine Nat.le_of_mul_le_mul_left ?_ (power_pos (by decide) 1 : 0 < power 10 1)
  calc power 10 1 * (1 * power 10 k.toNat * power 10 (-d.exponent).toNat)
      = power 10 (1 + k.toNat + (-d.exponent).toNat) := by
        rw [Nat.one_mul, ← Nat.mul_assoc, ← power_add, ← power_add]
    _ ≤ power 10 ((naturalText d.digits).length + d.exponent.toNat + (-k).toNat) :=
        power_le_power (by decide) (by omega)
    _ = power 10 (naturalText d.digits).length * power 10 d.exponent.toNat * power 10 (-k).toNat := by
        rw [← power_add, ← power_add]
    _ ≤ power 10 1 * d.digits * power 10 d.exponent.toNat * power 10 (-k).toNat :=
        Nat.mul_le_mul_right _ (Nat.mul_le_mul_right _ below)
    _ = power 10 1 * (d.digits * power 10 d.exponent.toNat * power 10 (-k).toNat) := by
        rw [Nat.mul_assoc, Nat.mul_assoc, Nat.mul_assoc]

/-- From `2 ^ 53` on all numbers are whole. -/
theorem isWhole_of_large (large : power 2 53 * unitsPerOne ≤ m.units) : m.isWhole := by
  obtain ⟨k, s, small, units⟩ := exists_nearestUnits_eq m.units 1
  rw [m.nearest] at units
  have places : binaryPlaces ≤ s := by
    by_contra short
    have less : k * power 2 s < power 2 53 * unitsPerOne :=
      Nat.lt_of_le_of_lt (Nat.mul_le_mul_right _ small)
        (Nat.mul_lt_mul_of_pos_left (power_lt_power (by decide) (Nat.lt_of_not_le short)) (power_two_pos 53))
    omega
  have whole : unitsPerOne ∣ m.units := units ▸ Nat.dvd_trans (power_dvd_power 2 places) (Nat.dvd_mul_left _ _)
  exact decide_eq_true (Nat.mod_eq_zero_of_dvd whole)

/-- The number nearest to `0.0001`. -/
def tenThousandth : Magnitude where
  units := nearestUnits unitsPerOne 10000
  nearest := nearestUnits_nearestUnits _ _
  bounded := by decide +kernel

theorem ofDecimal_tenThousandth : Binary64.ofDecimal false 1 (-4) = .finite false tenThousandth := by decide +kernel

private theorem place_tenThousandth : tenThousandth.place = -3 := by decide +kernel

/-- Fewer than four zeros stand behind the point exactly from one ten-thousandth on. -/
theorem lt_place_iff (nonzero : m.units ≠ 0) : -4 < m.place ↔ tenThousandth.units ≤ m.units := by
  constructor
  · exact units_le_of_lt_place ofDecimal_tenThousandth nonzero
  · intro least
    by_contra front
    have most := units_le_of_place_le ofDecimal_tenThousandth (Int.not_lt.mp front)
    -- rounding may still meet the bound itself, but there the place is known
    rw [ext_units (Nat.le_antisymm most least), place_tenThousandth] at front
    omega

/-- Numbers that are not whole have no digits beyond the sixteenth place before the point. -/
theorem place_le_of_not_isWhole (fraction : ¬ m.isWhole) : m.place ≤ 16 := by
  by_contra back
  have nonzero : m.units ≠ 0 := fun zero => fraction (isWhole_of_units_eq_zero zero)
  obtain ⟨size, ten, large⟩ : ∃ size, Binary64.ofDecimal false 1 16 = .finite false size ∧
      power 2 53 * unitsPerOne ≤ size.units :=
    ⟨⟨nearestUnits (power 10 16 * unitsPerOne) 1, nearestUnits_nearestUnits _ _, by decide +kernel⟩, by decide +kernel,
      by decide +kernel⟩
  exact fraction (isWhole_of_large (Nat.le_trans large (units_le_of_lt_place ten nonzero (Int.not_le.mp back))))

end Magnitude

end HeroSheet
