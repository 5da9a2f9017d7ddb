import HeroSheet.Proofs.Formula.Delimiters
import HeroSheet.Proofs.Sheet.Valid
import HeroSheet.Proofs.Text.Blank

/-!
Formulas of several parts. Parts with a blank between them are resolved each by itself, when neither waits for a slot
level nor is the name of a variable, and what the first part opens it also closes: no pass finds a reference across
the blank, and no pass opens or closes anything for a later one.
-/

namespace HeroSheet

namespace Character

open Formula

variable {c : Character} {a b cs : List Char}

/-- The text, without the blanks at its ends, is not the name of a variable. -/
def IsUnnamed (c : Character) (cs : List Char) : Prop := c.heldVariable? (String.ofList (Text.trim cs)) = none

instance (c : Character) (cs : List Char) : Decidable (c.IsUnnamed cs) := inferInstanceAs (Decidable (_ = none))

section Passes

variable (a b)

private theorem resolveHashReferences_append : c.resolveHashReferences (a ++ ' ' :: b) =
    c.resolveHashReferences a ++ ' ' :: c.resolveHashReferences b :=
  finds_hashReference.replacePhrases_append (partedBy_hashReference a) b

private theorem resolveParenReferences_append : c.resolveParenReferences (a ++ ' ' :: b) =
    c.resolveParenReferences a ++ ' ' :: c.resolveParenReferences b :=
  finds_parenReference.replacePhrases_append (partedBy_parenReference a) b

private theorem resolveBrackets_append (closes : Closes '[' ']' a) : c.resolveBrackets (a ++ ' ' :: b) =
    c.resolveBrackets a ++ ' ' :: c.resolveBrackets b :=
  (finds_enclosed '[' ']').replacePhrases_append (partedBy_enclosed closes (by decide)) b

private theorem removeAll_boldMarker_append : Text.removeAll boldMarker (a ++ ' ' :: b) =
    Text.removeAll boldMarker a ++ ' ' :: Text.removeAll boldMarker b :=
  (Text.finds_word (by decide)).replacePhrases_append (partedBy_word (by decide)) b

private theorem resolveBraces_append (closes : Closes '{' '}' a) : c.resolveBraces (a ++ ' ' :: b) =
    c.resolveBraces a ++ ' ' :: c.resolveBraces b :=
  (finds_enclosed '{' '}').replacePhrases_append (partedBy_enclosed closes (by decide)) b

end Passes

theorem onlyDelimiters_pair {opening closing : Char} (first : opening ∈ delimiters) (last : closing ∈ delimiters) :
    OnlyDelimiters fun d => d == opening || d == closing := by
  intro d kept
  rcases Bool.or_eq_true_iff.mp kept with same | same
  · rwa [beq_iff_eq.mp same]
  · rwa [beq_iff_eq.mp same]

theorem closes_resolveParenReferences {opening closing : Char} (first : opening ∈ delimiters)
    (last : closing ∈ delimiters) (closes : Closes opening closing cs) :
    Closes opening closing (c.resolveParenReferences (c.resolveHashReferences cs)) := by
  have only := onlyDelimiters_pair first last
  refine closes_of_filter_eq closes ?_
  rw [filter_resolveParenReferences only, filter_resolveHashReferences only]

private theorem closes_removeAll_boldMarker (closes : Closes '{' '}' cs) :
    Closes '{' '}' (Text.removeAll boldMarker (c.resolveBrackets cs)) := by
  refine closes_of_filter_eq closes ?_
  rw [filter_removeAll_boldMarker (onlyDelimiters_pair (by decide) (by decide)), filter_resolveBrackets]
  intro d kept
  exact (Bool.or_eq_true_iff.mp kept).imp beq_iff_eq.mp beq_iff_eq.mp

private theorem resolveReferences_append (brackets : Closes '[' ']' a) (braces : Closes '{' '}' a) (b : List Char) :
    c.resolveReferences (a ++ ' ' :: b) = c.resolveReferences a ++ ' ' :: c.resolveReferences b := by
  have bracketed := closes_resolveParenReferences (c := c) (by decide) (by decide) brackets
  have braced := closes_resolveParenReferences (c := c) (by decide) (by decide) braces
  have left := closes_removeAll_boldMarker (c := c) braced
  unfold resolveReferences
  rw [resolveHashReferences_append, resolveParenReferences_append, resolveBrackets_append _ _ bracketed,
    removeAll_boldMarker_append, resolveBraces_append _ _ left]

private theorem mentionsSlotLevel_append (left : mentionsSlotLevel a = false) (right : mentionsSlotLevel b = false) :
    mentionsSlotLevel (a ++ ' ' :: b) = false := by
  simp only [mentionsSlotLevel, Bool.not_eq_false', List.isEmpty_iff] at left right ⊢
  rw [finds_slotLevelMention.pieces_append partedBy_slotLevelMention, Text.phrases_append, left]
  exact right

theorem bareValue?_of_isUnnamed (unnamed : c.IsUnnamed cs) : c.bareValue? cs = none := by
  have unheld : c.bagValue? (String.ofList (Text.trim cs)) = none := congrArg (Option.map _) unnamed
  simp only [bareValue?, unheld, ite_self]

/-- A formula between two characters that are neither blank nor part of a path is no variable. -/
theorem bareValue?_within {opening closing : Char} {content : List Char} (opens : isPathChar opening = false)
    (starts : isBlank opening = false) (ends : isBlank closing = false) :
    c.bareValue? (within opening closing content) = none := by
  have whole : Text.trim (within opening closing content) = within opening closing content := by
    refine Text.strip_eq_self (by rintro d ⟨⟩; exact starts) ?_
    have last : (within opening closing content).getLast? = some closing := by
      rw [within, ← List.cons_append, List.getLast?_append]
      rfl
    rw [last]
    rintro d ⟨⟩
    exact ends
  have unnamed : isPath (within opening closing content) = false := by
    apply Bool.eq_false_iff.mpr
    intro named
    have char := isPathChar_of_isPath named opening List.mem_cons_self
    rw [opens] at char
    cases char
  simp only [bareValue?, whole, unnamed, Bool.false_eq_true, if_false]

/-- Two parts are a name only when one of them is blank and the other is the name. -/
theorem bareValue?_append (left : c.IsUnnamed a) (right : c.IsUnnamed b) : c.bareValue? (a ++ ' ' :: b) = none := by
  by_cases solid : ∃ d ∈ a, isBlank d = false
  · by_cases more : ∃ d ∈ b, isBlank d = false
    · have blank : ' ' ∈ Text.trim (a ++ ' ' :: b) := Text.mem_strip_of_between solid more
      have spaced : isPath (Text.trim (a ++ ' ' :: b)) = false := by
        apply Bool.eq_false_iff.mpr
        intro whole
        exact absurd (isPathChar_of_isPath whole ' ' blank) (by decide)
      simp only [bareValue?, spaced, Bool.false_eq_true, if_false]
    · have same : Text.trim (a ++ ' ' :: b) = Text.trim a := by
        apply Text.strip_append_right
        intro d member
        rcases List.mem_cons.mp member with rfl | later
        · rfl
        · by_contra other
          exact more ⟨d, later, by simpa using other⟩
      exact bareValue?_of_isUnnamed (by rwa [IsUnnamed, same])
  · have same : Text.trim (a ++ ' ' :: b) = Text.trim b := by
      rw [← List.singleton_append, ← List.append_assoc]
      apply Text.strip_append_left
      intro d member
      rcases List.mem_append.mp member with front | space
      · by_contra other
        exact solid ⟨d, front, by simpa using other⟩
      · rw [List.mem_singleton.mp space]
        rfl
    exact bareValue?_of_isUnnamed (by rwa [IsUnnamed, same])

theorem resolve_of_isUnnamed (slotless : mentionsSlotLevel cs = false) (unnamed : c.bareValue? cs = none) :
    c.resolve cs = c.resolveReferences cs := by
  simp only [resolve, slotless, Bool.false_eq_true, if_false, unnamed]

section Untouched

variable {part : List Char}

theorem findsNothing_of_not_mem {α : Type} {recognise : Text.Recogniser α} {opening : Char}
    (starts : ∀ s, s.head? ≠ some opening → recognise none s = none) (absent : opening ∉ part) :
    Text.FindsNothing recognise part := by
  intro s suffix
  apply starts
  intro here
  exact absent (suffix.subset (List.mem_of_mem_head? here))

theorem hashReference_eq_none (s : List Char) (apart : s.head? ≠ some '(') : hashReference none s = none := by
  unfold hashReference
  split
  · exact absurd rfl apart
  · rfl

theorem parenReference_eq_none (s : List Char) (apart : s.head? ≠ some '(') : parenReference none s = none := by
  unfold parenReference
  split
  · exact absurd rfl apart
  · rfl

theorem enclosed_eq_none (opening closing : Char) (s : List Char) (apart : s.head? ≠ some opening) :
    enclosed opening closing none s = none := by
  cases s with
  | nil => rfl
  | cons d s =>
    have other : d ≠ opening := fun same => apart (congrArg some same)
    exact if_neg other

theorem resolveHashReferences_eq_self (parens : '(' ∉ part) : c.resolveHashReferences part = part :=
  finds_hashReference.replacePhrases_eq_self (findsNothing_of_not_mem hashReference_eq_none parens)

theorem resolveParenReferences_eq_self (parens : '(' ∉ part) : c.resolveParenReferences part = part :=
  finds_parenReference.replacePhrases_eq_self (findsNothing_of_not_mem parenReference_eq_none parens)

theorem resolveBrackets_eq_self (brackets : '[' ∉ part) : c.resolveBrackets part = part :=
  (finds_enclosed '[' ']').replacePhrases_eq_self (findsNothing_of_not_mem (enclosed_eq_none '[' ']') brackets)

theorem removeAll_boldMarker_eq_self (bold : Text.contains boldMarker part = false) :
    Text.removeAll boldMarker part = part :=
  (Text.finds_word (by decide)).replacePhrases_eq_self (Text.findsNothing_word bold)

theorem resolveBraces_eq_self (braces : '{' ∉ part) : c.resolveBraces part = part :=
  (finds_enclosed '{' '}').replacePhrases_eq_self (findsNothing_of_not_mem (enclosed_eq_none '{' '}') braces)

private theorem resolveReferences_eq_self (parens : '(' ∉ part) (brackets : '[' ∉ part) (braces : '{' ∉ part)
    (bold : Text.contains boldMarker part = false) : c.resolveReferences part = part := by
  rw [resolveReferences, resolveHashReferences_eq_self parens, resolveParenReferences_eq_self parens,
    resolveBrackets_eq_self brackets, removeAll_boldMarker_eq_self bold, resolveBraces_eq_self braces]

private theorem resolve_eq_self (unnamed : c.IsUnnamed part) (parens : '(' ∉ part) (brackets : '[' ∉ part)
    (braces : '{' ∉ part) (bold : Text.contains boldMarker part = false) : c.resolve part = part := by
  by_cases waits : mentionsSlotLevel part = true
  · simp only [resolve, waits, if_true]
  · rw [resolve_of_isUnnamed (Bool.eq_false_iff.mpr waits) (bareValue?_of_isUnnamed unnamed)]
    exact resolveReferences_eq_self parens brackets braces bold

end Untouched

/-- A formula is resolved part by part, and a part that refers to nothing stays as it is. -/
theorem resolve_by_parts (c : Character) :
    (∀ a b, mentionsSlotLevel a = false → mentionsSlotLevel b = false → c.IsUnnamed a → c.IsUnnamed b →
      Closes '[' ']' a → Closes '{' '}' a → c.resolve (a ++ ' ' :: b) = c.resolve a ++ ' ' :: c.resolve b) ∧
      ∀ part, c.IsUnnamed part → '(' ∉ part → '[' ∉ part → '{' ∉ part → Text.contains boldMarker part = false →
        c.resolve part = part := by
  constructor
  · intro a b left right unnamed other brackets braces
    rw [resolve_of_isUnnamed (mentionsSlotLevel_append left right) (bareValue?_append unnamed other),
      resolve_of_isUnnamed left (bareValue?_of_isUnnamed unnamed),
      resolve_of_isUnnamed right (bareValue?_of_isUnnamed other), resolveReferences_append brackets braces]
  · intro part unnamed parens brackets braces bold
    exact resolve_eq_self unnamed parens brackets braces bold

/-- A character whose level is a variable of the sheet. -/
def leveled (level : Int) : Character := { plain with bag := [("level", .number (.ofInt level))] }

/-- Behind a number for the level the dice stay dice. -/
theorem resolve_by_parts_leveled :
    (leveled 3).resolve "{level}".toList = "3".toList ∧
      (leveled 3).resolve "2d6".toList = "2d6".toList ∧
      (leveled 3).resolve "{level} 2d6".toList = "3 2d6".toList := by
  obtain ⟨parts, untouched⟩ := resolve_by_parts (leveled 3)
  have level : (leveled 3).resolve "{level}".toList = "3".toList := by decide +kernel
  have dice : (leveled 3).resolve "2d6".toList = "2d6".toList :=
    untouched _ (by decide +kernel) (by decide) (by decide) (by decide) (by decide)
  have whole := parts "{level}".toList "2d6".toList (by decide +kernel) (by decide +kernel) (by decide +kernel)
    (by decide +kernel) (by decide) (by decide)
  rw [level, dice] at whole
  exact ⟨level, dice, whole⟩

end Character

end HeroSheet
