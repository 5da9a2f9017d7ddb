import HeroSheet.Proofs.Text.Blank
import HeroSheet.Proofs.Text.LowerCase
import HeroSheet.Rule.Catalog
import Mathlib.Data.List.Chain

namespace HeroSheet

variable {cs before front rest : List Char} {c : Char}

/-- A character of a normal form that is not a space. -/
def isKeyChar (c : Char) : Bool := c.isLower || c.isDigit || c == ':'

/-- Not two spaces in a row. -/
def Spaced (cs : List Char) : Prop := cs.IsChain fun c d => ¬ (c = ' ' ∧ d = ' ')

/-- Small letters, digits and colons, with single spaces between them and none at the ends. -/
structure IsRuleKey (cs : List Char) : Prop where
  chars : ∀ c ∈ cs, isKeyChar c ∨ c = ' '
  spaced : Spaced cs
  starts : ∀ c ∈ cs.head?, c ≠ ' '
  ends : ∀ c ∈ cs.getLast?, c ≠ ' '

section Characters

private theorem toNat_of_isLower (small : c.isLower) : 97 ≤ c.toNat ∧ c.toNat ≤ 122 := by
  obtain ⟨least, most⟩ := Bool.and_eq_true_iff.mp small
  exact ⟨UInt32.le_iff_toNat_le.mp (of_decide_eq_true least), UInt32.le_iff_toNat_le.mp (of_decide_eq_true most)⟩

private theorem toNat_of_isDigit (digit : c.isDigit) : 48 ≤ c.toNat ∧ c.toNat ≤ 57 := by
  obtain ⟨least, most⟩ := Bool.and_eq_true_iff.mp digit
  exact ⟨UInt32.le_iff_toNat_le.mp (of_decide_eq_true least), UInt32.le_iff_toNat_le.mp (of_decide_eq_true most)⟩

/-- Key characters are of the ASCII alphabet, and none is blank or a capital. -/
theorem toNat_of_isKeyChar (key : isKeyChar c) : 48 ≤ c.toNat ∧ c.toNat ≤ 58 ∨ 97 ≤ c.toNat ∧ c.toNat ≤ 122 := by
  simp only [isKeyChar, Bool.or_eq_true, beq_iff_eq] at key
  rcases key with (letter | digit) | rfl
  · exact Or.inr (toNat_of_isLower letter)
  · have range := toNat_of_isDigit digit
    omega
  · decide

theorem not_isBlank_of_isKeyChar (key : isKeyChar c) : isBlank c = false := by
  have range := toNat_of_isKeyChar key
  simp only [isBlank, isWhiteSpace, isSeparator, Bool.or_eq_false_iff, Bool.and_eq_false_iff,
    decide_eq_false_iff_not, beq_eq_false_iff_ne]
  omega

theorem ne_space_of_isKeyChar (key : isKeyChar c) : c ≠ ' ' := by
  rintro rfl
  exact absurd key (by decide)

private theorem isKeyChar_of_isRuleNameChar (allowed : isRuleNameChar c) (solid : isBlank c = false) : isKeyChar c := by
  simpa [isRuleNameChar, isKeyChar, solid] using allowed

private theorem isRuleNameChar_of_isKeyChar (key : isKeyChar c) : isRuleNameChar c := by
  simp only [isKeyChar, isRuleNameChar, Bool.or_eq_true] at key ⊢
  tauto

/-- An ASCII character that lower case leaves as it is, whatever stands around it. -/
def IsSmall (c : Char) : Prop := c.toNat < 128 ∧ c.toLower = c

private theorem isSmall_of_isKeyChar (key : isKeyChar c) : IsSmall c := by
  have range := toNat_of_isKeyChar key
  have plain : ¬ (c.val ≥ 'A'.val ∧ c.val ≤ 'Z'.val) := by
    simp only [ge_iff_le, UInt32.le_iff_toNat_le]
    change ¬ (65 ≤ c.toNat ∧ c.toNat ≤ 90)
    omega
  exact ⟨by omega, dif_neg plain⟩

private theorem lowerAfter_of_small (small : ∀ c ∈ cs, IsSmall c) : lowerAfter before cs = cs := by
  induction cs generalizing before with
  | nil => rfl
  | cons c cs ih =>
    obtain ⟨⟨ascii, plain⟩, small⟩ := List.forall_mem_cons.mp small
    have sigma : c ≠ capitalSigma := by
      rintro rfl
      exact absurd ascii (by decide)
    rw [lowerAfter, if_neg sigma, lowerChar, if_pos ascii, plain, ih small]
    rfl

end Characters

section Blanks

theorem head?_collapseBlanks (solid : ∀ c ∈ cs.head?, isBlank c = false) : (collapseBlanks cs).head? = cs.head? := by
  cases cs with
  | nil => rfl
  | cons c cs => rw [collapseBlanks, if_neg (by simp [solid c rfl]), List.head?_cons, List.head?_cons]

/-- Collapsing leaves the characters that are not blank, and spaces. -/
theorem mem_collapseBlanks (member : c ∈ collapseBlanks cs) : c ∈ cs ∧ isBlank c = false ∨ c = ' ' := by
  induction cs with
  | nil => cases member
  | cons own cs ih =>
    have later := fun member => (ih member).imp (And.imp (List.mem_cons_of_mem own) id) id
    unfold collapseBlanks at member
    split at member
    · split at member
      · exact later member
      · rcases List.mem_cons.mp member with rfl | member
        · exact Or.inr rfl
        · exact later member
    · rename_i solid
      rcases List.mem_cons.mp member with rfl | member
      · exact Or.inl ⟨List.mem_cons_self, by simpa using solid⟩
      · exact later member

private theorem spaced_collapseBlanks (cs : List Char) : Spaced (collapseBlanks cs) := by
  induction cs with
  | nil => exact List.isChain_nil
  | cons c cs ih =>
    unfold collapseBlanks
    split
    · split
      · exact ih
      · rename_i alone
        have solid : ∀ d ∈ cs.head?, isBlank d = false := fun d first => by
          simpa [Option.mem_def.mp first] using alone
        refine List.isChain_cons.mpr ⟨fun d first both => ?_, ih⟩
        rw [head?_collapseBlanks solid] at first
        have outside := solid d first
        rw [both.2] at outside
        exact absurd outside (by decide)
    · rename_i solid
      refine List.isChain_cons.mpr ⟨fun d first both => solid ?_, ih⟩
      rw [both.1]
      decide

private theorem spaced_of_solid (solid : ∀ c ∈ cs, c ≠ ' ') : Spaced cs := by
  induction cs with
  | nil => exact List.isChain_nil
  | cons c cs ih =>
    obtain ⟨own, solid⟩ := List.forall_mem_cons.mp solid
    exact List.isChain_cons.mpr ⟨fun _ _ both => own both.1, ih solid⟩

theorem Spaced.part {part : List Char} (spaced : Spaced cs) (inside : part <:+: cs) : Spaced part :=
  List.IsChain.infix spaced inside

private theorem collapseBlanks_eq_self (chars : ∀ c ∈ cs, isKeyChar c ∨ c = ' ') (spaced : Spaced cs) :
    collapseBlanks cs = cs := by
  induction cs with
  | nil => rfl
  | cons c cs ih =>
    obtain ⟨own, others⟩ := List.forall_mem_cons.mp chars
    obtain ⟨apart, later⟩ := List.isChain_cons.mp spaced
    rw [collapseBlanks, ih others later]
    rcases own with key | rfl
    · rw [if_neg (by simp [not_isBlank_of_isKeyChar key])]
    · have alone : cs.head?.any isBlank = false := by
        cases first : cs.head? with
        | none => rfl
        | some d =>
          rcases others d (List.mem_of_head? first) with key | rfl
          · exact not_isBlank_of_isKeyChar key
          · exact absurd ⟨rfl, rfl⟩ (apart ' ' first)
      rw [if_pos (by decide), if_neg (by simp [alone])]

end Blanks

section Kept

/-- The small letters, digits, blanks and colons of a name. -/
def keptOfName (cs : List Char) : List Char := (Text.lower cs).filter isRuleNameChar

theorem normalizeRuleName_eq (cs : List Char) : normalizeRuleName cs = Text.trim (collapseBlanks (keptOfName cs)) := rfl

/-- What is kept of a name is kept of its parts, since no sigma is. -/
theorem keptOfName_append (front rest : List Char) : keptOfName (front ++ rest) = keptOfName front ++ keptOfName rest := by
  have alone : ∀ cs, keptOfName cs = cs.flatMap fun c => (lowerChar c).filter isRuleNameChar :=
    fun cs => filter_lowerAfter (by decide) (by decide)
  rw [alone, alone, alone, List.flatMap_append]

end Kept

theorem isRuleKey_trim (chars : ∀ c ∈ cs, isKeyChar c ∨ c = ' ') (spaced : Spaced cs) :
    IsRuleKey (Text.trim cs) where
  chars c member := chars c ((Text.strip_isInfix cs).mem member)
  spaced := spaced.part (Text.strip_isInfix cs)
  starts c first := by
    rintro rfl
    exact absurd (Text.not_inClass_of_mem_head?_strip first) (by decide)
  ends c last := by
    rintro rfl
    exact absurd (Text.not_inClass_of_mem_getLast?_strip last) (by decide)

theorem isRuleKey_normalizeRuleName (cs : List Char) : IsRuleKey (normalizeRuleName cs) := by
  refine isRuleKey_trim (fun c member => ?_) (spaced_collapseBlanks _)
  rcases mem_collapseBlanks member with ⟨kept, solid⟩ | space
  · exact Or.inl (isKeyChar_of_isRuleNameChar (List.mem_filter.mp kept).2 solid)
  · exact Or.inr space

namespace IsRuleKey

theorem not_isBlank (key : IsRuleKey cs) (member : c ∈ cs) (solid : c ≠ ' ') : isBlank c = false :=
  not_isBlank_of_isKeyChar ((key.chars c member).resolve_right solid)

/-- Only punctuation and blanks are lost between a text without capitals and its normal form. -/
theorem trim_collapseBlanks (key : IsRuleKey cs) : Text.trim (collapseBlanks cs) = cs := by
  rw [collapseBlanks_eq_self key.chars key.spaced]
  exact Text.strip_eq_self (fun c first => key.not_isBlank (List.mem_of_mem_head? first) (key.starts c first))
    fun c last => key.not_isBlank (List.mem_of_getLast? last) (key.ends c last)

private theorem isSmall (key : IsRuleKey cs) (member : c ∈ cs) : IsSmall c := by
  rcases key.chars c member with key | rfl
  · exact isSmall_of_isKeyChar key
  · exact ⟨by decide, by decide⟩

theorem isRuleNameChar (key : IsRuleKey cs) (member : c ∈ cs) : isRuleNameChar c := by
  rcases key.chars c member with key | rfl
  · exact isRuleNameChar_of_isKeyChar key
  · decide

/-- All of a normal form is kept. -/
theorem keptOfName_eq_self (key : IsRuleKey cs) : keptOfName cs = cs := by
  have lower : Text.lower cs = cs := lowerAfter_of_small fun c member => key.isSmall member
  rw [keptOfName, lower]
  exact List.filter_eq_self.mpr fun c member => key.isRuleNameChar member

theorem normalizeRuleName_eq_self (key : IsRuleKey cs) : normalizeRuleName cs = cs := by
  rw [normalizeRuleName_eq, key.keptOfName_eq_self, key.trim_collapseBlanks]

/-- The trimmed start of a normal form is one. -/
theorem trim_prefix (key : IsRuleKey (front ++ rest)) : IsRuleKey (Text.trim front) :=
  isRuleKey_trim (fun c member => key.chars c (List.mem_append_left rest member))
    (key.spaced.part (List.prefix_append front rest).isInfix)

/-- A word behind a space extends a normal form. -/
theorem append_word (key : IsRuleKey cs) (some : cs ≠ []) {word : List Char} (letters : ∀ c ∈ word, isKeyChar c)
    (there : word ≠ []) : IsRuleKey (cs ++ ' ' :: word) where
  chars c member := by
    rcases List.mem_append.mp member with own | new
    · exact key.chars c own
    · rcases List.mem_cons.mp new with rfl | new
      · exact Or.inr rfl
      · exact Or.inl (letters c new)
  spaced := by
    have solid := fun c member => ne_space_of_isKeyChar (letters c member)
    refine List.isChain_append.mpr ⟨key.spaced, List.isChain_cons.mpr ⟨fun d first both => ?_, spaced_of_solid solid⟩, ?_⟩
    · exact solid d (List.mem_of_head? first) both.2
    · intro c last d _ both
      exact key.ends c last both.1
  starts c first := by
    rw [List.head?_append_of_ne_nil _ some] at first
    exact key.starts c first
  ends c last := by
    rw [List.getLast?_append_of_ne_nil _ (List.cons_ne_nil _ _), List.getLast?_cons_of_ne_nil there] at last
    exact ne_space_of_isKeyChar (letters c (List.mem_of_getLast? last))

end IsRuleKey

end HeroSheet
