import HeroSheet.Proofs.Formula.Simplify
import HeroSheet.Proofs.Number.Positional

/-!
Numbers that are written into a formula and read again. The text of a number is read as the number unless it has an
exponent, which the signs and letters of formulas leave no room for; so fractions below one ten-thousandth are
written in a form that nothing can evaluate.
-/

namespace HeroSheet

namespace Formula

variable {x : Binary64} {m : Magnitude}

/-- What is written for the value of a number evaluates to that value. -/
def ReadsBack (x : Binary64) : Prop := ∃ y, evaluate (Value.ofNumber x).render = .ok y ∧ y.same x

section Text

/-- A value is written as the number that it stands for. -/
theorem render_ofNumber (x : Binary64) : (Value.ofNumber x).render = renderNumber x := by
  cases x with
  | finite negative m =>
    by_cases whole : (Binary64.finite negative m).isWhole
    · rw [Value.ofNumber, renderNumber, if_pos whole, if_pos whole]
      rfl
    · rw [Value.ofNumber, if_neg whole]
      rfl
  | infinite | nan => rfl

private theorem mem_renderNumber_finite (negative : Bool) (m : Magnitude) :
    'e' ∈ renderNumber (.finite negative m) ↔ 'e' ∈ m.rendered := by
  rw [renderNumber_finite]
  split
  · simp
  · rfl

/-- Numbers are written without an exponent when they are whole, and from one ten-thousandth on. -/
theorem isPlain_iff : m.IsPlain ↔ m.isWhole ∨ Magnitude.tenThousandth.units ≤ m.units := by
  by_cases whole : m.isWhole
  · simp [Magnitude.IsPlain, whole]
  · have nonzero : m.units ≠ 0 := fun zero => whole (Magnitude.isWhole_of_units_eq_zero zero)
    have high := Magnitude.place_le_of_not_isWhole whole
    simp only [Magnitude.IsPlain, Magnitude.IsPositional, Magnitude.lt_place_iff nonzero, high, and_true]

private theorem same_unsignedZero (finite : x.isFinite) : (unsignedZero x).same x := by
  by_cases zero : x.isZero
  · cases x with
    | finite negative m =>
      have none : m.units = 0 := of_decide_eq_true zero
      cases negative <;> simp [unsignedZero, zero, Binary64.zero, Binary64.same, Binary64.signedUnits, Magnitude.zero, none]
    | infinite | nan => cases finite
  · rw [unsignedZero, if_neg zero]
    cases x with
    | finite negative m => exact decide_eq_true rfl
    | infinite | nan => cases finite

end Text

/-- The text of a number is read as the number exactly when it has no exponent. -/
theorem readsBack_iff_not_mem (finite : x.isFinite) : ReadsBack x ↔ 'e' ∉ renderNumber x := by
  rw [ReadsBack, render_ofNumber]
  constructor
  · rintro ⟨y, ok, _⟩
    exact not_mem_of_evaluate_renderNumber finite ok
  · intro plain
    exact ⟨unsignedZero x, evaluate_renderNumber finite plain, same_unsignedZero finite⟩

/-- A number is written without an exponent exactly when it is whole or no nearer to zero than one ten-thousandth. -/
theorem not_mem_renderNumber_iff (finite : x.isFinite) :
    'e' ∉ renderNumber x ↔ x.isWhole ∨ ¬ x.abs.lt (.ofDecimal false 1 (-4)) := by
  cases x with
  | infinite | nan => cases finite
  | finite negative m =>
    have plain : 'e' ∉ m.rendered ↔ m.IsPlain := ⟨isPlain_of_rendered, not_mem_of_isPlain⟩
    rw [mem_renderNumber_finite, plain, isPlain_iff, Magnitude.ofDecimal_tenThousandth, Binary64.abs,
      Binary64.lt_finite_iff, Nat.not_lt]
    rfl

/-- A number is read back from its text exactly when it is whole or no nearer to zero than one ten-thousandth. -/
theorem readsBack_iff (finite : x.isFinite) : ReadsBack x ↔ x.isWhole ∨ ¬ x.abs.lt (.ofDecimal false 1 (-4)) := by
  rw [readsBack_iff_not_mem finite]
  exact not_mem_renderNumber_iff finite

/-- Below zero too, a fraction is read back. -/
theorem readsBack_fraction :
    (Binary64.ofDecimal true 275 (-2)).isFinite ∧ renderNumber (.ofDecimal true 275 (-2)) = "-2.75".toList ∧
      ReadsBack (.ofDecimal true 275 (-2)) := by
  have finite : (Binary64.ofDecimal true 275 (-2)).isFinite := by decide +kernel
  exact ⟨finite, by decide +kernel, (readsBack_iff finite).mpr (by decide +kernel)⟩

/-- A small fraction is written with an exponent, and its letter is no character of a number. -/
theorem not_readsBack_small :
    (Binary64.ofDecimal false 1 (-5)).isFinite ∧ renderNumber (.ofDecimal false 1 (-5)) = "1e-05".toList ∧
      ¬ ReadsBack (.ofDecimal false 1 (-5)) := by
  have written : (Value.ofNumber (.ofDecimal false 1 (-5))).render = "1e-05".toList := by decide +kernel
  have refused : (evaluate "1e-05".toList).toOption = none := by decide +kernel
  refine ⟨by decide +kernel, by decide +kernel, ?_⟩
  rintro ⟨y, ok, _⟩
  rw [written] at ok
  rw [ok] at refused
  cases refused

end Formula

end HeroSheet
