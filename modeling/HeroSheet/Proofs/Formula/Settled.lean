import HeroSheet.Proofs.Formula.Progress

/-!
Formulas that resolving leaves alone. A formula is settled when nothing is left in it that a pass would replace. No
other formula stays as it is, since the passes do not undo each other; so a resolved formula that is resolved again
stays the same exactly when it is settled.
-/

namespace HeroSheet

namespace Formula

open Text

section Pass

variable {recognise : Recogniser (List Char)} {opening closing : Char} {inClass : Char → Prop}
  {value? : List Char → Option (List Char)} {cs : List Char}

theorem pass_eq_self (finds : Finds recognise (Between opening closing inClass))
    (unvalued : ∀ phrase ∈ phrases (pieces recognise cs), value? phrase = none) :
    replacePhrases recognise (fun phrase => (value? phrase).getD (opening :: phrase ++ [closing])) cs = cs :=
  finds.replacePhrases_eq_self_of_unvalued (fun spelled => spelled.1) unvalued

/-- A pass that writes numbers over parentheses or brackets. -/
theorem overwritten_pass (finds : Finds recognise (Between opening closing inClass)) (opens : opening ∈ ['(', '['])
    (foreign : ∀ phrase text, value? phrase = some text → BeginsForeign text) (cs : List Char) :
    Overwritten cs
      (replacePhrases recognise (fun phrase => (value? phrase).getD (opening :: phrase ++ [closing])) cs) := by
  rcases finds.exists_firstValued value? _ (fun spelled => spelled.1) cs with unvalued | first
  · rw [pass_eq_self finds unvalued]
    exact .refl cs
  · obtain ⟨front, phrase, text, back, split, _, value, written⟩ := first
    obtain ⟨c, rest, rfl, other⟩ := foreign phrase text value
    rw [written, split]
    exact .append front (.here _ _ opens other)

/-- When such a pass changes nothing, it finds nothing that has a value. -/
theorem unvalued_of_pass_eq_self (finds : Finds recognise (Between opening closing inClass)) (opens : opening ∈ ['(', '['])
    (foreign : ∀ phrase text, value? phrase = some text → BeginsForeign text)
    (same : replacePhrases recognise (fun phrase => (value? phrase).getD (opening :: phrase ++ [closing])) cs = cs) :
    ∀ phrase ∈ phrases (pieces recognise cs), value? phrase = none := by
  rcases finds.exists_firstValued value? _ (fun spelled => spelled.1) cs with unvalued | first
  · exact unvalued
  · obtain ⟨front, phrase, text, back, split, _, value, written⟩ := first
    obtain ⟨c, rest, rfl, other⟩ := foreign phrase text value
    have equal := List.append_cancel_left (written.symm.trans (same.trans split))
    exact absurd ((List.cons.inj equal).1 ▸ mem_openers opens) other

theorem wordStarts_pass_le (finds : Finds recognise (Between opening closing inClass)) (closes : isPathChar closing = false)
    (fewer : ∀ phrase text back inWord, recognise none (opening :: phrase ++ [closing] ++ back) =
      some (phrase, (opening :: phrase ++ [closing]).length) → value? phrase = some text →
        wordStarts inWord text ≤ wordStarts inWord (opening :: phrase ++ [closing]))
    {inWord outer : Bool} (order : outer = true → inWord = true) (cs : List Char) :
    wordStarts inWord
        (replacePhrases recognise (fun phrase => (value? phrase).getD (opening :: phrase ++ [closing])) cs) ≤
      wordStarts outer cs := by
  refine wordStarts_replacePhrases_le finds ?_ ?_ order cs
  · rintro source phrase ⟨rfl, _⟩
    rw [endsInWord_concat]
    exact closes
  · rintro source phrase back ⟨rfl, _⟩ found inWord
    cases value : value? phrase with
    | none => exact Nat.le_refl _
    | some text => exact fewer phrase text back inWord found value

end Pass

end Formula

namespace Character

open Formula Text

variable {c : Character} {cs content text : List Char}

/-- Nothing is left in the text that a pass over the references would replace. -/
structure ReferencesSettled (c : Character) (cs : List Char) : Prop where
  hash : ∀ name ∈ phrases (pieces hashReference cs), c.numericValue? name = none
  paren : ∀ name ∈ phrases (pieces parenReference cs), c.bagNumber? name = none
  bracket : ∀ content ∈ phrases (pieces bracketed cs), c.bracketValue? content = none
  bold : contains boldMarker cs = false
  brace : ∀ content ∈ phrases (pieces braced cs), c.braceValue? content = none

/-- The text waits for a slot level, or is a variable with that text, or has nothing left to replace. -/
def Settled (c : Character) (cs : List Char) : Prop :=
  mentionsSlotLevel cs = true ∨ (∃ value, c.bareValue? cs = some value ∧ value.render = cs) ∨
    (c.bareValue? cs = none ∧ c.ReferencesSettled cs)

section Passes

theorem beginsForeign_of_number {value? : Option Value} (found : (value?.filter (·.isNumber)).map (·.render) = some text) :
    BeginsForeign text := by
  obtain ⟨value, numeric, rfl⟩ := Option.map_eq_some_iff.mp found
  exact beginsForeign_render (Option.filter_eq_some_iff.mp numeric).2

theorem wordStarts_of_number {value? : Option Value} (found : (value?.filter (·.isNumber)).map (·.render) = some text)
    {source : List Char} {inWord : Bool} (named : 1 ≤ wordStarts inWord source) :
    wordStarts inWord text ≤ wordStarts inWord source := by
  obtain ⟨value, numeric, rfl⟩ := Option.map_eq_some_iff.mp found
  exact (wordStarts_render (Option.filter_eq_some_iff.mp numeric).2).trans named

private theorem overwritten_resolveHashReferences (cs : List Char) : Overwritten cs (c.resolveHashReferences cs) :=
  overwritten_pass finds_hashReference (by decide) (fun _ _ => beginsForeign_of_number) cs

private theorem overwritten_resolveParenReferences (cs : List Char) : Overwritten cs (c.resolveParenReferences cs) :=
  overwritten_pass finds_parenReference (by decide) (fun _ _ => beginsForeign_of_number) cs

private theorem overwritten_resolveBrackets (cs : List Char) : Overwritten cs (c.resolveBrackets cs) :=
  overwritten_pass (finds_enclosed '[' ']') (by decide)
    (fun _ _ found => (isNumberText_of_bracketValue? found).beginsForeign) cs

private theorem wordStarts_resolveHashReferences_le (cs : List Char) :
    wordStarts false (c.resolveHashReferences cs) ≤ wordStarts false cs := by
  refine wordStarts_pass_le finds_hashReference (by decide) ?_ id cs
  intro phrase text back inWord read found
  obtain ⟨letter, more, rfl, starts⟩ := starts_of_hashReference read
  have word : 1 ≤ wordStarts inWord (['(', '#'] ++ letter :: (more ++ [')'])) :=
    one_le_wordStarts (by simp) (forall_of_all (by decide)) starts _ inWord
  exact wordStarts_of_number found word

private theorem wordStarts_resolveParenReferences_le (cs : List Char) :
    wordStarts false (c.resolveParenReferences cs) ≤ wordStarts false cs := by
  refine wordStarts_pass_le finds_parenReference (by decide) ?_ id cs
  intro phrase text back inWord read found
  obtain ⟨_, _, _, letter, more, rfl, starts⟩ := spelled_of_parenReference read
  have word : 1 ≤ wordStarts inWord (['('] ++ letter :: (more ++ [')'])) :=
    one_le_wordStarts (by simp) (forall_of_all (by decide)) starts _ inWord
  exact wordStarts_of_number found word

private theorem wordStarts_resolveBrackets_le (cs : List Char) :
    wordStarts false (c.resolveBrackets cs) ≤ wordStarts false cs := by
  refine wordStarts_pass_le (finds_enclosed '[' ']') (by decide) ?_ id cs
  intro phrase text back inWord _ found
  exact (isNumberText_of_bracketValue? found).wordStarts_eq_zero.trans_le (Nat.zero_le _)

private theorem wordStarts_removeAll_boldMarker_le (cs : List Char) :
    wordStarts false (removeAll boldMarker cs) ≤ wordStarts false cs := by
  refine wordStarts_replacePhrases_le (finds_word (by decide)) ?_ ?_ id cs
  · rintro source _ rfl
    decide
  · intro source phrase back _ _ inWord
    exact Nat.zero_le _

private theorem withoutStars_removeAll_boldMarker (cs : List Char) :
    withoutStars (removeAll boldMarker cs) = withoutStars cs := by
  refine (finds_word (by decide)).filter_replacePhrases ?_ cs
  rintro source _ rfl
  decide

end Passes

section Braces

/-- The values in braces that are no number: they are put in place of names, and no letter is left. -/
structure Spliced (content text : List Char) : Prop where
  unnamed : ∀ d ∈ text, isNameStart d = false
  parts : ∃ front letter more behind, content = front ++ letter :: more ∧ text = front ++ behind ∧ isNameStart letter

theorem cases_of_braceValue? (found : c.braceValue? content = some text) :
    IsNumberText text ∨ Spliced content text := by
  unfold braceValue? at found
  simp only at found
  rcases Option.or_eq_some_iff.mp found with evaluated | ⟨_, spliced⟩
  · left
    split at evaluated
    · obtain ⟨x, value, rfl⟩ := Option.map_eq_some_iff.mp evaluated
      exact isNumberText_renderNumber (isFinite_of_evaluate (eq_ok_of_toOption value))
    · cases evaluated
  · right
    split at spliced
    · rename_i changed
      obtain rfl := Option.some.inj spliced
      obtain ⟨other, letterless⟩ := changed
      have unnamed : ∀ d ∈ c.substituteValues content, isNameStart d = false := by
        simpa using letterless
      refine ⟨unnamed, ?_⟩
      rcases finds_path.exists_firstValued (fun name => (c.valueOf? name).map (·.render)) id
        (fun spelled => spelled.1) content with none | ⟨front, name, value, back, split, read, _, written⟩
      · exact absurd (finds_path.replacePhrases_eq_self_of_unvalued (fun spelled => spelled.1) none) other
      · obtain ⟨_, named, same⟩ := Option.map_eq_some_iff.mp read
        obtain ⟨rfl, _⟩ := Prod.mk.inj same
        obtain ⟨letter, more, rfl, starts⟩ := starts_of_pathSpan? named
        exact ⟨front, letter, more ++ back, _, split, written, starts⟩
    · cases spliced

private theorem wordStarts_resolveBraces_le {inWord outer : Bool} (order : outer = true → inWord = true)
    (cs : List Char) :
    wordStarts inWord (c.resolveBraces cs) ≤ wordStarts outer cs := by
  refine wordStarts_pass_le (finds_enclosed '{' '}') (by decide) ?_ order cs
  intro content text back inWord _ found
  have none : wordStarts inWord text = 0 := by
    rcases cases_of_braceValue? found with number | spliced
    · exact number.wordStarts_eq_zero
    · exact wordStarts_eq_zero spliced.unnamed inWord
  exact none.trans_le (Nat.zero_le _)

/-- Braces in place of which values are put without a letter lose a word. -/
theorem wordStarts_spliced_lt {front back : List Char} (spliced : Spliced content text)
    (outside : ∀ {start behind}, content = start ++ behind → (∃ rest, text = start ++ rest) →
      ∀ d ∈ start, isPathChar d = false) :
    wordStarts false (front ++ (text ++ c.resolveBraces back)) <
      wordStarts false (front ++ ('{' :: content ++ ['}'] ++ back)) := by
  obtain ⟨unnamed, start, letter, more, behind, split, written, starts⟩ := spliced
  have apart : ∀ d ∈ '{' :: start, isPathChar d = false :=
    List.forall_mem_cons.mpr ⟨by decide, outside split ⟨behind, written⟩⟩
  have named : 1 ≤ wordStarts (endsInWord false front) ('{' :: content ++ ['}']) := by
    have word := one_le_wordStarts (List.cons_ne_nil '{' start) apart starts (more ++ ['}']) (endsInWord false front)
    rw [split]
    simpa using word
  have closed : endsInWord (endsInWord false front) ('{' :: content ++ ['}']) = false := by
    rw [endsInWord_concat]
    rfl
  have later : wordStarts (endsInWord (endsInWord false front) text) (c.resolveBraces back) ≤ wordStarts false back :=
    wordStarts_resolveBraces_le (by simp) back
  rw [wordStarts_append, wordStarts_append, wordStarts_append, wordStarts_append, closed,
    wordStarts_eq_zero unnamed]
  omega

/-- When the braces of a text make up for nothing that was written over before, none of them has a value. -/
theorem unvalued_braces {before : List Char} (overwritten : Overwritten (withoutStars before) (withoutStars cs))
    (fewer : wordStarts false cs ≤ wordStarts false before) (back : c.resolveBraces cs = before) :
    ∀ content ∈ phrases (pieces braced cs), c.braceValue? content = none := by
  rcases (finds_enclosed '{' '}').exists_firstValued c.braceValue? _ (fun spelled => spelled.1) cs
    with none | ⟨front, content, text, rest, split, _, value, written⟩
  · exact none
  · exfalso
    have written : before = front ++ (text ++ c.resolveBraces rest) := back.symm.trans written
    rw [written, split, withoutStars_append front, withoutStars_append front] at overwritten
    have overwritten : Overwritten (withoutStars (text ++ c.resolveBraces rest))
      ('{' :: withoutStars (content ++ ['}'] ++ rest)) := overwritten.of_append
    rcases cases_of_braceValue? value with number | spliced
    · obtain ⟨d, digits, rfl, foreign⟩ := number.beginsForeign
      rw [List.cons_append, withoutStars_cons_of_foreign foreign] at overwritten
      exact foreign ((overwritten.of_cons (by decide)).1 ▸ by decide)
    · have lost : wordStarts false (front ++ (text ++ c.resolveBraces rest)) <
          wordStarts false (front ++ ('{' :: content ++ ['}'] ++ rest)) := by
        refine wordStarts_spliced_lt spliced ?_
        rintro start behind rfl ⟨spliced, rfl⟩
        rw [List.append_assoc, List.append_assoc, List.append_assoc] at overwritten
        exact overwritten.outside_of_brace
      rw [written, split] at fewer
      omega

end Braces

/-- Passes that leave a text as it is together do nothing one by one: what one of them writes over comes back in no
later one. -/
theorem passes_eq_self (fixed : c.resolveReferences cs = cs) :
    c.resolveHashReferences cs = cs ∧ c.resolveParenReferences cs = cs ∧ c.resolveBrackets cs = cs ∧
      removeAll boldMarker cs = cs ∧ ∀ content ∈ phrases (pieces braced cs), c.braceValue? content = none := by
  have hash := overwritten_resolveHashReferences (c := c) cs
  have paren := overwritten_resolveParenReferences (c := c) (c.resolveHashReferences cs)
  have bracket := overwritten_resolveBrackets (c := c) (c.resolveParenReferences (c.resolveHashReferences cs))
  have overwritten := (hash.trans paren).trans bracket
  have stars := withoutStars_removeAll_boldMarker
    (c.resolveBrackets (c.resolveParenReferences (c.resolveHashReferences cs)))
  have fewer := calc
    wordStarts false (removeAll boldMarker (c.resolveBrackets (c.resolveParenReferences (c.resolveHashReferences cs))))
    _ ≤ wordStarts false (c.resolveBrackets (c.resolveParenReferences (c.resolveHashReferences cs))) :=
        wordStarts_removeAll_boldMarker_le _
    _ ≤ wordStarts false (c.resolveParenReferences (c.resolveHashReferences cs)) := wordStarts_resolveBrackets_le _
    _ ≤ wordStarts false (c.resolveHashReferences cs) := wordStarts_resolveParenReferences_le _
    _ ≤ wordStarts false cs := wordStarts_resolveHashReferences_le _
  have brace := unvalued_braces (stars ▸ overwritten.filter) fewer fixed
  -- the braces do nothing, so what stands in front of them is the text itself, and from there back to the first pass
  have unbold : removeAll boldMarker (c.resolveBrackets (c.resolveParenReferences (c.resolveHashReferences cs))) = cs :=
    (pass_eq_self (finds_enclosed '{' '}') brace).symm.trans fixed
  rw [unbold] at brace stars
  have whole : c.resolveBrackets (c.resolveParenReferences (c.resolveHashReferences cs)) = cs :=
    (overwritten.eq_of_withoutStars stars).symm
  rw [whole] at bracket unbold
  have unhashed : c.resolveHashReferences cs = cs := (hash.antisymm (paren.trans bracket)).symm
  rw [unhashed] at paren bracket whole
  have unparen : c.resolveParenReferences cs = cs := (paren.antisymm bracket).symm
  rw [unparen] at whole
  exact ⟨unhashed, unparen, whole, unbold, brace⟩

private theorem settled_of_resolveReferences_eq_self (fixed : c.resolveReferences cs = cs) :
    c.ReferencesSettled cs := by
  obtain ⟨hash, paren, bracket, bold, brace⟩ := passes_eq_self fixed
  refine ⟨?_, ?_, ?_, contains_of_removeAll_eq_self (by decide) bold, brace⟩
  · exact fun name member => Option.map_eq_none_iff.mp
      (unvalued_of_pass_eq_self finds_hashReference (by decide) (fun _ _ => beginsForeign_of_number) hash name member)
  · exact fun name member => Option.map_eq_none_iff.mp
      (unvalued_of_pass_eq_self finds_parenReference (by decide) (fun _ _ => beginsForeign_of_number) paren name member)
  · exact unvalued_of_pass_eq_self (finds_enclosed '[' ']') (by decide)
      (fun _ _ found => (isNumberText_of_bracketValue? found).beginsForeign) bracket

/-- A text with nothing left to replace stays as it is. -/
private theorem resolveReferences_of_settled (settled : c.ReferencesSettled cs) : c.resolveReferences cs = cs := by
  have hash : c.resolveHashReferences cs = cs :=
    pass_eq_self finds_hashReference fun name member => Option.map_eq_none_iff.mpr (settled.hash name member)
  have paren : c.resolveParenReferences cs = cs :=
    pass_eq_self finds_parenReference fun name member => Option.map_eq_none_iff.mpr (settled.paren name member)
  have bracket : c.resolveBrackets cs = cs := pass_eq_self (finds_enclosed '[' ']') settled.bracket
  have brace : c.resolveBraces cs = cs := pass_eq_self (finds_enclosed '{' '}') settled.brace
  rw [resolveReferences, hash, paren, bracket, removeAll_boldMarker_eq_self settled.bold, brace]

/-- Resolving leaves a formula alone exactly when it is settled. -/
theorem resolve_eq_self_iff_settled (c : Character) (cs : List Char) : c.resolve cs = cs ↔ c.Settled cs := by
  unfold resolve Settled
  by_cases waits : mentionsSlotLevel cs = true
  · simp only [waits, if_true, true_or]
  · cases bare : c.bareValue? cs with
    | some value => simp [waits]
    | none =>
      rw [if_neg waits]
      constructor
      · exact fun fixed => Or.inr (Or.inr ⟨rfl, settled_of_resolveReferences_eq_self fixed⟩)
      · rintro (slot | ⟨value, named, _⟩ | ⟨_, settled⟩)
        · exact absurd slot waits
        · cases named
        · exact resolveReferences_of_settled settled

/-- Resolving is idempotent on exactly the formulas that are settled once they are resolved. -/
theorem resolve_idempotent_iff (c : Character) (cs : List Char) :
    c.resolve (c.resolve cs) = c.resolve cs ↔ c.Settled (c.resolve cs) :=
  c.resolve_eq_self_iff_settled (c.resolve cs)

section Markers

theorem bracketValue?_of_nameless (nameless : phrases (pieces path (withoutBlanks content)) = [])
    (uncalled : wrapped? (withoutBlanks content) = none) : c.bracketValue? content =
      if isPureArithmetic (withoutBlanks content) then
        (evaluate (withoutBlanks content)).toOption.bind fun x => x.floor?.map integerText
      else none := by
  have same : c.substitutePaths (withoutBlanks content) = withoutBlanks content :=
    substitutePaths_eq_self (by rw [replacements, nameless, List.foldl_nil])
  simp only [bracketValue?, wrapperValue?, uncalled, Option.bind_none, Option.none_or, same]

/-- For no character is resolving idempotent: arithmetic between bold markers is not resolved until they are gone. -/
theorem exists_resolve_ne (c : Character) : ∃ cs, c.resolve (c.resolve cs) ≠ c.resolve cs := by
  have unread : c.bracketValue? "**3**".toList = none := by
    rw [bracketValue?_of_nameless (by decide) (by decide)]
    decide +kernel
  have read : c.bracketValue? "3".toList = some "3".toList := by
    rw [bracketValue?_of_nameless (by decide) (by decide)]
    decide +kernel
  have first : c.resolve "[**3**]".toList = "[3]".toList := by
    have bracket : c.resolveBrackets "[**3**]".toList = "[**3**]".toList := by
      have whole : c.resolveBrackets "[**3**]".toList = (c.bracketValue? "**3**".toList).getD "[**3**]".toList :=
        resolveBrackets_enclosed "**3**".toList (by decide) (by decide)
      rwa [unread] at whole
    have bold : removeAll boldMarker "[**3**]".toList = "[3]".toList := by decide
    rw [resolve_of_isUnnamed (by decide +kernel) rfl, resolveReferences, resolveHashReferences_eq_self (by decide),
      resolveParenReferences_eq_self (by decide), bracket, bold, resolveBraces_eq_self (by decide)]
  refine ⟨"[**3**]".toList, ?_⟩
  rw [first, Ne, resolve_eq_self_iff_settled]
  rintro (slot | ⟨value, named, _⟩ | ⟨_, settled⟩)
  · revert slot
    decide +kernel
  · cases named
  · have none := settled.bracket "3".toList (by decide)
    rw [read] at none
    cases none

end Markers

/-- Bold markers inside of parentheses go away behind the pass that looks for names in them. -/
theorem not_idempotent_bold :
    (leveled 3).resolve "1d6+(**level**)".toList = "1d6+(level)".toList ∧
      (leveled 3).resolve "1d6+(level)".toList = "1d6+3".toList ∧
      ¬ ∀ (c : Character) (cs : List Char), c.resolve (c.resolve cs) = c.resolve cs := by
  have first : (leveled 3).resolve "1d6+(**level**)".toList = "1d6+(level)".toList := by decide +kernel
  have second : (leveled 3).resolve "1d6+(level)".toList = "1d6+3".toList := by decide +kernel
  refine ⟨first, second, ?_⟩
  intro idempotent
  have again := idempotent (leveled 3) "1d6+(**level**)".toList
  rw [first, second] at again
  exact absurd again (by decide)

end Character

end HeroSheet
