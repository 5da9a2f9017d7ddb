import HeroSheet.Proofs.Number.Integer
import HeroSheet.Proofs.Number.Positional

namespace HeroSheet

namespace Magnitude

/-- Whole parts are binary numbers themselves. -/
theorem isExact_of_natAbs (m : Magnitude) {n : Int} (size : n.natAbs = m.floor ∨ n.natAbs = m.ceil) :
    Binary64.IsExact n := by
  have positive := unitsPerOne_pos
  by_cases large : power 2 53 * unitsPerOne ≤ m.units
  · obtain ⟨k, units⟩ := Nat.dvd_of_mod_eq_zero (of_decide_eq_true (isWhole_of_large large))
    rw [Nat.mul_comm] at units
    rw [floor_of_units units, ceil_of_units units, or_self] at size
    exact Binary64.isExact_of_units (size ▸ units)
  · have least : m.floor < power 2 53 := (Nat.div_lt_iff_lt_mul positive).mpr (Nat.not_le.mp large)
    have most : m.ceil < power 2 53 + 1 := by
      refine (Nat.div_lt_iff_lt_mul positive).mpr ?_
      rw [Nat.add_mul]
      omega
    exact Binary64.isExact_of_small (by omega)

/-- The greatest magnitude, in units. -/
def greatestUnits : Nat := overflowUnits - power 2 (binaryPlaces + 971)

private theorem units_le_greatestUnits (m : Magnitude) : m.units ≤ greatestUnits := by
  obtain ⟨k, s, small, units⟩ := exists_nearestUnits_eq m.units 1
  rw [m.nearest] at units
  have bounded := m.bounded
  have top : overflowUnits = power 2 53 * power 2 (binaryPlaces + 971) := by
    rw [overflowUnits, ← power_add]
    exact congrArg (power 2) (by omega)
  by_cases places : binaryPlaces + 971 ≤ s
  · obtain ⟨own, same⟩ : power 2 (binaryPlaces + 971) ∣ m.units :=
      units ▸ Nat.dvd_trans (power_dvd_power 2 places) (Nat.dvd_mul_left _ _)
    rw [Nat.mul_comm] at same
    rw [top, same] at bounded
    have below : own + 1 ≤ power 2 53 := Nat.lt_of_mul_lt_mul_right bounded
    have room := Nat.mul_le_mul_right (power 2 (binaryPlaces + 971)) below
    rw [Nat.add_mul, Nat.one_mul] at room
    rw [greatestUnits, top, same]
    omega
  · calc m.units = k * power 2 s := units
      _ ≤ power 2 53 * power 2 (binaryPlaces + 970) := Nat.mul_le_mul small (power_le_power (by decide) (by omega))
      _ ≤ greatestUnits := by decide +kernel

end Magnitude

namespace Binary64

variable {x : Binary64} {n : Int}

theorem isExact_of_floor? (floor : x.floor? = some n) : IsExact n := by
  cases x with
  | infinite | nan => cases floor
  | finite negative m =>
    have same : (if negative then -(m.ceil : Int) else m.floor) = n := Option.some.inj floor
    refine m.isExact_of_natAbs ?_
    rw [← same]
    cases negative with
    | false => exact Or.inl (by rw [if_neg Bool.false_ne_true, Int.natAbs_natCast])
    | true => exact Or.inr (by rw [if_pos rfl, Int.natAbs_neg, Int.natAbs_natCast])

theorem isExact_of_ceil? (ceil : x.ceil? = some n) : IsExact n := by
  cases x with
  | infinite | nan => cases ceil
  | finite negative m =>
    have same : (if negative then -(m.floor : Int) else m.ceil) = n := Option.some.inj ceil
    refine m.isExact_of_natAbs ?_
    rw [← same]
    cases negative with
    | false => exact Or.inr (by rw [if_neg Bool.false_ne_true, Int.natAbs_natCast])
    | true => exact Or.inl (by rw [if_pos rfl, Int.natAbs_neg, Int.natAbs_natCast])

theorem isFinite_ofUnits {negative : Bool} {num den : Nat} (bounded : nearestUnits num den < overflowUnits) :
    (ofUnits negative num den).isFinite := by
  rw [ofUnits, dif_pos bounded]
  rfl

/-- The magnitude of a half. -/
def halfSize : Magnitude where
  units := nearestUnits unitsPerOne 2
  nearest := nearestUnits_nearestUnits _ _
  bounded := by decide +kernel

private theorem half_eq : half = .finite false halfSize := by decide +kernel

/-- A half more is rounded off where numbers are large. -/
theorem isFinite_add_half (finite : x.isFinite) : (x + half).isFinite := by
  rw [half_eq]
  cases x with
  | infinite | nan => cases finite
  | finite negative m =>
    have bounded : ∀ num ≤ m.units + halfSize.units, nearestUnits num 1 < overflowUnits := by
      intro num most
      have above : num ≤ Magnitude.greatestUnits + halfSize.units :=
        Nat.le_trans most (Nat.add_le_add_right m.units_le_greatestUnits _)
      calc nearestUnits num 1 ≤ nearestUnits (Magnitude.greatestUnits + halfSize.units) 1 := nearestUnits_mono_num above
        _ < overflowUnits := by decide +kernel
    have sum : Binary64.finite negative m + .finite false halfSize =
        ofSignedUnits (negative && false) (signedUnits negative m + signedUnits false halfSize) := rfl
    rw [sum, ofSignedUnits]
    split
    · exact isFinite_ofUnits (bounded 0 (Nat.zero_le _))
    · refine isFinite_ofUnits (bounded _ ?_)
      cases negative with
      | false => rw [signedUnits, signedUnits, if_neg Bool.false_ne_true]; omega
      | true => rw [signedUnits, signedUnits, if_pos rfl, if_neg Bool.false_ne_true]; omega

theorem exists_floor? (finite : x.isFinite) : ∃ n, x.floor? = some n := by
  cases x with
  | infinite | nan => cases finite
  | finite negative m => exact ⟨_, rfl⟩

theorem exists_ceil? (finite : x.isFinite) : ∃ n, x.ceil? = some n := by
  cases x with
  | infinite | nan => cases finite
  | finite negative m => exact ⟨_, rfl⟩

end Binary64

end HeroSheet
