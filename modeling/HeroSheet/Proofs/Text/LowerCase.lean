import HeroSheet.Text.Blank
import HeroSheet.Text.LowerCase

/-!
Small letters, character by character. What stands around a character matters to a sigma alone, so blanks stay where
they are, and what is kept of a text in small letters is kept of each character for itself.
-/

namespace HeroSheet

variable {c : Char} {cs before : List Char}

/-- A code point between bounds that no run of capitals meets is no capital. -/
theorem lowerChar_of_apart {first last : Nat} (low : first ≤ c.toNat) (high : c.toNat ≤ last) (large : 128 ≤ first)
    (dotless : last < 0x130 ∨ 0x130 < first)
    (runs : ∀ run ∈ capitalRuns, run.2.1 < first ∨ last < run.1) : lowerChar c = [c] := by
  rw [lowerChar, if_neg (by omega), if_neg (by omega)]
  split
  · rename_i found
    have within := List.find?_some found
    simp only [Bool.and_eq_true, decide_eq_true_eq] at within
    have apart := runs _ (List.mem_of_find?_eq_some found)
    simp only at apart
    omega
  · rfl

/-- The code points of blanks. -/
def blankCodes : List Nat :=
  [9, 10, 11, 12, 13, 28, 29, 30, 31, 32, 0x85, 0xA0, 0x1680, 0x2000, 0x2001, 0x2002, 0x2003, 0x2004, 0x2005, 0x2006,
    0x2007, 0x2008, 0x2009, 0x200A, 0x2028, 0x2029, 0x202F, 0x205F, 0x3000]

private theorem mem_blankCodes (blank : isBlank c) : c.toNat ∈ blankCodes := by
  simp only [isBlank, isWhiteSpace, isSeparator, Bool.or_eq_true, Bool.and_eq_true, decide_eq_true_eq,
    beq_iff_eq] at blank
  simp only [blankCodes, List.mem_cons, List.not_mem_nil, or_false]
  omega

private theorem lowerChar_of_isBlank (blank : isBlank c) : lowerChar c = [c] := by
  have small : ∀ n ∈ blankCodes, lowerChar (Char.ofNat n) = [Char.ofNat n] := by decide +kernel
  simpa using small c.toNat (mem_blankCodes blank)

/-- Blanks stay in small letters. -/
theorem mem_lowerAfter_of_isBlank (blank : isBlank c) (member : c ∈ cs) : c ∈ lowerAfter before cs := by
  induction cs generalizing before with
  | nil => cases member
  | cons own cs ih =>
    rw [lowerAfter]
    rcases List.mem_cons.mp member with rfl | member
    · have sigma : c ≠ capitalSigma := by
        rintro rfl
        exact absurd blank (by decide)
      rw [if_neg sigma, lowerChar_of_isBlank blank]
      exact List.mem_append_left _ List.mem_cons_self
    · exact List.mem_append_right _ (ih member)

/-- What is kept of a text in small letters, when no sigma is, does not depend on what stands around a character. -/
theorem filter_lowerAfter {keep : Char → Bool} (inner : keep 'σ' = false) (final : keep 'ς' = false) :
    (lowerAfter before cs).filter keep = cs.flatMap fun c => (lowerChar c).filter keep := by
  induction cs generalizing before with
  | nil => rfl
  | cons c cs ih =>
    rw [lowerAfter, List.filter_append, ih, List.flatMap_cons]
    congr 1
    by_cases sigma : c = capitalSigma
    · have small : lowerChar capitalSigma = ['σ'] := by decide
      rw [if_pos sigma, sigma, small]
      unfold lowerSigma
      split <;> simp [inner, final]
    · rw [if_neg sigma]

end HeroSheet
