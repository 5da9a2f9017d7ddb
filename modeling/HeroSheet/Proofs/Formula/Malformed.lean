import HeroSheet.Proofs.Formula.Spaced

/-!
Malformed arithmetic. Brackets and braces around a text without letters that cannot be evaluated stay as they are
written, but for bold markers: these go before braces are looked at, and what is left of the text may have a value.
In brackets the blanks go first, which makes no difference unless one of them keeps two numerals apart.
-/

namespace HeroSheet

namespace Formula

open Text PhraseReader

section Numbered

variable {α ω : Type} {inner : Derivation Expr} {cs : List Char} {tokens : List Token}

/-- What is derived holds the token of a numeral. -/
def Numbered (derivation : Derivation α) : Prop :=
  ∀ ⦃tokens : List Token⦄ ⦃a : α⦄, derivation tokens a → ∃ token ∈ tokens, token.kind = .number

theorem Numbered.chained {operand : Derivation α} {operator? : Token → Option ω} {combine : ω → α → α → α}
    (operands : Numbered operand) : Numbered (Chained operand operator? combine) := by
  intro tokens a chained
  induction chained with
  | one shaped => exact operands shaped
  | more start found shaped ih =>
    obtain ⟨token, member, kind⟩ := ih
    exact ⟨token, List.mem_append_left _ member, kind⟩

theorem Numbered.alone {operand : Derivation α} (operands : Numbered operand) : Numbered (Alone operand) := by
  rintro tokens _ ⟨a, rfl, shaped⟩
  exact operands shaped

theorem Numbered.factorOf (factors : Numbered inner) : Numbered (FactorOf inner) := by
  intro tokens e factor
  cases factor with
  | number kind numeral => exact ⟨_, List.mem_singleton_self _, kind⟩
  | call kind named opens content closes accepted =>
    obtain ⟨token, member, number⟩ := factors.chained.chained.alone.chained content
    exact ⟨token, by simp [member], number⟩
  | group opens content closes =>
    obtain ⟨token, member, number⟩ := factors.chained.chained content
    exact ⟨token, by simp [member], number⟩
  | minus kind text content =>
    obtain ⟨token, member, number⟩ := factors content
    exact ⟨token, by simp [member], number⟩

private theorem numbered_isFactor (depth : Nat) : Numbered (IsFactor depth) := by
  induction depth with
  | zero => exact fun _ _ impossible => impossible.elim
  | succ depth ih => exact ih.factorOf

private theorem Lexes.text_subset {position : Nat} (lexes : Lexes position cs tokens) :
    ∀ token ∈ tokens, ∀ d ∈ token.text, d ∈ cs := by
  induction lexes with
  | nil => simp
  | @step position more c cs token? tokens reads others ih =>
    obtain ⟨skipped, written, _⟩ := (lexed_of_readToken reads).written
    have whole : c :: cs = c :: cs.take more ++ cs.drop more := by
      rw [List.cons_append, List.take_append_drop]
    intro token member d inside
    rw [whole, written]
    rcases List.mem_append.mp member with first | later
    · exact List.mem_append_left _ (List.mem_append_right _ (List.mem_flatMap.mpr ⟨token, first, inside⟩))
    · exact List.mem_append_right _ (ih token later d inside)

private theorem exists_isDecimal_of_evaluate {x : Binary64} (ok : evaluate cs = .ok x) : ∃ d ∈ cs, isDecimal d := by
  obtain ⟨tokens, e, lexes, parsed, _⟩ := evaluate_eq_ok_iff.mp ok
  obtain ⟨_, _, derives⟩ := (parse_eq_ok_iff lexes.sound).mp parsed
  obtain ⟨token, member, kind⟩ := (numbered_isFactor maxDepth).chained.chained derives
  obtain ⟨symbol, means⟩ := lexes.sound token member
  cases means with
  | number position chars reads =>
    obtain ⟨d, inside, decimal⟩ := (decimals_of_numerals chars reads).2
    exact ⟨d, lexes.text_subset _ member d inside, decimal⟩
  | _ => cases kind

end Numbered

section Letterless

variable {cs : List Char}

/-- A formula without letters mentions nothing. -/
theorem Letterless.not_mentionsSlotLevel (letterless : Letterless cs) : mentionsSlotLevel cs = false := by
  apply Bool.eq_false_iff.mpr
  intro mentioned
  have letter : 'l' ∈ slotLevelWord := by decide
  obtain ⟨c, member, same⟩ := List.mem_map.mp ((mentionsSlotLevel_iff.mp mentioned).subset letter)
  have other := letterless c member
  rcases eq_of_foldCase 'L' (by decide) same with ⟨_, wrong⟩ | rfl | rfl
  · cases wrong
  · cases other
  · cases other

theorem Letterless.wrapped?_eq_none (letterless : Letterless cs) : wrapped? cs = none := by
  refine Formula.wrapped?_eq_none fun w opened => ?_
  have letters : (w.name ++ ['(']).any isNameStart := by cases w <;> decide
  obtain ⟨d, member, starts⟩ := List.any_eq_true.mp letters
  have other := letterless d (opened.subset member)
  rw [starts] at other
  cases other

/-- The text has no value. -/
def Rejected (cs : List Char) : Prop := ∃ fault, evaluate cs = .error fault

theorem rejected_iff : Rejected cs ↔ ∀ x, evaluate cs ≠ .ok x := by
  unfold Rejected
  cases evaluate cs <;> simp

instance (cs : List Char) : Decidable (Rejected cs) :=
  decidable_of_iff ((evaluate cs).toOption = none) <| by
    unfold Rejected
    cases evaluate cs <;> simp [Except.toOption]

end Letterless

end Formula

namespace Character

open Formula Text

variable {c : Character} {content : List Char}

private theorem bracketValue?_of_rejected (letterless : Letterless content)
    (rejected : Rejected (withoutBlanks content)) :
    c.bracketValue? content = none := by
  have solid : Letterless (withoutBlanks content) := fun d member => letterless d (List.mem_filter.mp member).1
  obtain ⟨fault, failed⟩ := rejected
  rw [bracketValue?_of_nameless (finds_path.phrases_eq_nil (findsNothing_path solid)) solid.wrapped?_eq_none, failed]
  exact ite_self _

private theorem braceValue?_of_letterless (letterless : Letterless content) :
    c.braceValue? content = (evaluate content).toOption.map renderNumber := by
  have same : c.substituteValues content = content := finds_path.replacePhrases_eq_self (findsNothing_path letterless)
  unfold braceValue?
  simp only [same, ne_eq, not_true_eq_false, false_and, if_false, Option.or_none]
  cases ok : evaluate content with
  | error fault => exact ite_self _
  | ok x =>
    obtain ⟨d, member, decimal⟩ := exists_isDecimal_of_evaluate ok
    have evaluable : content.any isEvaluable :=
      List.any_eq_true.mpr ⟨d, member, Bool.or_eq_true_iff.mpr (Or.inl decimal)⟩
    rw [if_pos evaluable]

/-- Malformed arithmetic in brackets stays but for its bold markers, when no blank keeps two numerals apart or it has no
value without its blanks either; in braces it comes to its value without the markers, or stays without them. -/
theorem resolve_rejected (c : Character) (content : List Char) (letterless : Letterless content)
    (undelimited : Undelimited content) (rejected : Rejected content) :
    (NumeralsApart content ∨ Rejected (withoutBlanks content) →
      c.resolve (within '[' ']' content) = within '[' ']' (removeAll boldMarker content)) ∧
      c.resolve (within '{' '}' content) =
        match evaluate (removeAll boldMarker content) with
        | .ok x => renderNumber x
        | .error _ => within '{' '}' (removeAll boldMarker content) := by
  constructor
  · intro spaced
    have unread : Rejected (withoutBlanks content) := by
      refine spaced.elim (fun apart => rejected_iff.mpr fun x ok => ?_) id
      exact rejected_iff.mp rejected x (evaluate_of_withoutBlanks letterless apart ok)
    have whole : Letterless (within '[' ']' content) := letterless.within rfl rfl
    rw [resolve_brackets undelimited whole.not_mentionsSlotLevel (unreferenced_of_letterless whole),
      bracketValue?_of_rejected letterless unread, Option.getD_none]
  · have whole : Letterless (within '{' '}' content) := letterless.within rfl rfl
    have left : Letterless (removeAll boldMarker content) := fun d member =>
      letterless d (mem_of_mem_removeAll (by decide) member)
    rw [resolve_braces undelimited whole.not_mentionsSlotLevel (unreferenced_of_letterless whole),
      braceValue?_of_letterless left]
    cases evaluate (removeAll boldMarker content) <;> rfl

/-- An operator without its operand, with blanks. -/
theorem resolve_rejected_open :
    plain.resolve "[2 * (3 +]".toList = "[2 * (3 +]".toList ∧
      plain.resolve "{2 * (3 +}".toList = "{2 * (3 +}".toList := by
  have kept := resolve_rejected plain "2 * (3 +".toList (by decide) (by decide) (by decide +kernel)
  have failed : Rejected (removeAll boldMarker "2 * (3 +".toList) := by decide +kernel
  obtain ⟨fault, failed⟩ := failed
  obtain ⟨brackets, braces⟩ := kept
  rw [failed] at braces
  exact ⟨brackets (Or.inl (by decide +kernel)), braces⟩

/-- Two signs that are refused are a bold marker, and what is left of the text has a value. -/
theorem not_resolve_rejected_bold :
    Rejected "2**3".toList ∧ plain.resolve "{2**3}".toList = "23".toList ∧
      plain.resolve "[2**3]".toList = "[23]".toList ∧
      ¬ ∀ (c : Character) (content : List Char), Letterless content → Undelimited content → Rejected content →
        c.resolve (within '[' ']' content) = within '[' ']' content ∧
          c.resolve (within '{' '}' content) = within '{' '}' content := by
  have rejected : Rejected "2**3".toList := by decide +kernel
  have braces : plain.resolve "{2**3}".toList = "23".toList := by decide +kernel
  have brackets : plain.resolve "[2**3]".toList = "[23]".toList := by decide +kernel
  refine ⟨rejected, braces, brackets, ?_⟩
  intro kept
  have same := (kept plain "2**3".toList (by decide) (by decide) rejected).2
  exact absurd (braces.symm.trans same) (by decide)

end Character

end HeroSheet
