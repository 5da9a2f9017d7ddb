import HeroSheet.Proofs.Formula.Simplify
import HeroSheet.Roll.Prepare

namespace HeroSheet

namespace Formula

section Passes

/-- The second pass finds nothing to change. -/
theorem passCount_le_two (limit : Nat) (cs : List Char) : passCount limit cs ≤ 2 := by
  match limit with
  | 0 => simp [passCount]
  | 1 =>
    rw [passCount]
    split <;> simp [passCount]
  | limit + 2 =>
    rw [passCount]
    split
    · simp
    · rw [passCount, if_pos (simplifyOnce_simplifyOnce cs)]

private theorem simplifyOnce_nil : simplifyOnce [] = [] := by decide

end Passes

section Limit

variable (config : Config) (cs : List Char) {m n : Int}

/-- A limit that is asked for is the limit, whatever the settings say. -/
theorem passLimit_of_pos (positive : 1 ≤ m) : passLimit config (some m) = .ok m.toNat := by
  have nonzero : m ≠ 0 := by omega
  simp [passLimit, Option.filter, nonzero]

private theorem simplifyWithin_of_passLimit {limit : Option Int} {passes : Nat}
    (allowed : passLimit config limit = .ok passes) (positive : 0 < passes) :
    simplifyWithin config limit cs = .ok (simplifyOnce cs) := by
  obtain ⟨later, rfl⟩ := Nat.exists_eq_add_one.mpr positive
  cases cs with
  | nil => rw [simplifyOnce_nil, simplifyWithin, if_pos List.isEmpty_nil]
  | cons c cs =>
    rw [simplifyWithin, if_neg (by simp), allowed]
    exact congrArg Except.ok (simplify_succ later (c :: cs))

/-- A limit of one or more leaves the work of a single pass. -/
theorem simplifyWithin_of_pos (positive : 1 ≤ m) : simplifyWithin config (some m) cs = .ok (simplifyOnce cs) :=
  simplifyWithin_of_passLimit config cs (passLimit_of_pos config positive) (by omega)

/-- Limits of one or more all give the same text, and simplifying that text again, within any of them, leaves it as
it is. -/
theorem simplifyWithin_fixpoint (first : 1 ≤ m) (second : 1 ≤ n) :
    simplifyWithin config (some m) cs = simplifyWithin config (some n) cs ∧
      ∃ simplified, simplifyWithin config (some m) cs = .ok simplified ∧
        simplifyWithin config (some n) simplified = .ok simplified := by
  refine ⟨?_, simplifyOnce cs, simplifyWithin_of_pos config cs first, ?_⟩
  · rw [simplifyWithin_of_pos config cs first, simplifyWithin_of_pos config cs second]
  · rw [simplifyWithin_of_pos config _ second, simplifyOnce_simplifyOnce]

/-- A count before dice is written once, within a limit of one as within a limit of ten. -/
theorem simplifyWithin_fixpoint_count :
    simplifyWithin (.ok .default) (some 1) "(3*1)d6".toList = .ok "3d6".toList ∧
      simplifyWithin (.ok .default) (some 10) "(3*1)d6".toList = .ok "3d6".toList ∧
        simplifyWithin (.ok .default) (some 10) "3d6".toList = .ok "3d6".toList := by
  obtain ⟨alike, simplified, once, again⟩ := simplifyWithin_fixpoint (.ok .default) "(3*1)d6".toList
    (show (1 : Int) ≤ 1 by decide) (show (1 : Int) ≤ 10 by decide)
  have written : simplifyWithin (.ok .default) (some 1) "(3*1)d6".toList = .ok "3d6".toList := by decide +kernel
  obtain rfl : "3d6".toList = simplified := Except.ok.inj (written.symm.trans once)
  exact ⟨written, alike.symm.trans written, again⟩

end Limit

end Formula

end HeroSheet
