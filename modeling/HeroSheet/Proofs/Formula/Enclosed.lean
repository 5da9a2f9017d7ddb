import HeroSheet.Proofs.Formula.SlotLevel

namespace HeroSheet

namespace Formula

open Text

/-- No character of the text starts a name. -/
def Letterless (cs : List Char) : Prop := ∀ d ∈ cs, isNameStart d = false

instance (cs : List Char) : Decidable (Letterless cs) := List.decidableBAll _ cs

/-- The text neither opens nor closes brackets or braces. -/
def Undelimited (cs : List Char) : Prop := ∀ d ∈ cs, d ∉ delimiters

instance (cs : List Char) : Decidable (Undelimited cs) := List.decidableBAll _ cs

variable {content cs : List Char} {opening closing : Char}

theorem not_mem_within {d : Char} (absent : d ∉ content) (apart : d ≠ opening ∧ d ≠ closing) :
    d ∉ within opening closing content := by
  simp only [within, List.mem_cons, List.mem_append, List.not_mem_nil, or_false, not_or]
  exact ⟨apart.1, absent, apart.2⟩

theorem Undelimited.not_mem (undelimited : Undelimited content) {d : Char} (delimiter : d ∈ delimiters) :
    d ∉ content := fun member => undelimited d member delimiter

theorem Letterless.within (letterless : Letterless content) (opens : isNameStart opening = false)
    (closes : isNameStart closing = false) : Letterless (within opening closing content) := by
  simp only [Letterless, Formula.within, List.mem_cons, List.mem_append, List.not_mem_nil, or_false]
  rintro d (rfl | member | rfl)
  · exact opens
  · exact letterless d member
  · exact closes

section References

/-- References in parentheses are to names, and those have letters. -/
theorem Letterless.findsNothing {recognise : Recogniser (List Char)}
    (finds : Finds recognise (Between '(' ')' IsReferenceChar))
    (named : ∀ {s phrase width}, recognise none s = some (phrase, width) → ∃ letter ∈ phrase, isNameStart letter)
    (letterless : Letterless cs) : FindsNothing recognise cs := by
  intro s suffix
  cases found : recognise none s with
  | none => rfl
  | some read =>
    obtain ⟨phrase, width⟩ := read
    obtain ⟨letter, member, starts⟩ := named found
    obtain ⟨source, rest, rfl, _, _, rfl, _⟩ := finds.spelled found
    have inside : letter ∈ cs := suffix.subset (by simp [member])
    rw [letterless letter inside] at starts
    cases starts

private theorem exists_letter_of_hashReference {s phrase : List Char} {width : Nat}
    (found : hashReference none s = some (phrase, width)) : ∃ letter ∈ phrase, isNameStart letter := by
  obtain ⟨letter, more, rfl, starts⟩ := starts_of_hashReference found
  exact ⟨letter, by simp, starts⟩

private theorem exists_letter_of_parenReference {s phrase : List Char} {width : Nat}
    (found : parenReference none s = some (phrase, width)) : ∃ letter ∈ phrase, isNameStart letter := by
  obtain ⟨_, _, _, letter, more, rfl, starts⟩ := spelled_of_parenReference found
  exact ⟨letter, by simp, starts⟩

/-- No reference in parentheses is found in the formula. -/
structure Unreferenced (cs : List Char) : Prop where
  hash : FindsNothing hashReference cs
  paren : FindsNothing parenReference cs

theorem unreferenced_of_not_mem {cs : List Char} (parens : '(' ∉ cs) : Unreferenced cs :=
  ⟨Character.findsNothing_of_not_mem Character.hashReference_eq_none parens,
    Character.findsNothing_of_not_mem Character.parenReference_eq_none parens⟩

theorem unreferenced_of_letterless {cs : List Char} (letterless : Letterless cs) : Unreferenced cs :=
  ⟨letterless.findsNothing finds_hashReference exists_letter_of_hashReference,
    letterless.findsNothing finds_parenReference exists_letter_of_parenReference⟩

end References

section Passes

theorem removeAll_boldMarker_within (opens : opening ∉ boldMarker) (closes : closing ∉ boldMarker) :
    removeAll boldMarker (within opening closing content) = within opening closing (removeAll boldMarker content) := by
  have finds : Finds (word boldMarker) fun source _ => source = boldMarker := finds_word (by decide)
  have front : PartedBy (word boldMarker) [] opening := partedBy_word opens
  have behind : removeAll boldMarker (within opening closing content) =
      opening :: removeAll boldMarker (content ++ closing :: []) := finds.replacePhrases_append front _
  have before : removeAll boldMarker (content ++ closing :: []) = removeAll boldMarker content ++ closing :: [] :=
    finds.replacePhrases_append (partedBy_word closes) []
  rw [behind, before]
  rfl

theorem mem_of_mem_removeAll {target : List Char} (present : target ≠ []) {d : Char} (member : d ∈ removeAll target cs) :
    d ∈ cs := by
  have finds := finds_word present
  unfold removeAll replaceAll at member
  induction cs using finds.reading with
  | nil => cases member
  | char e cs nothing ih =>
    rw [finds.replacePhrases_of_none nothing] at member
    exact List.mem_cons.mpr ((List.mem_cons.mp member).imp_right ih)
  | found source phrase back present _ found ih =>
    rw [finds.replacePhrases_of_found present found, List.nil_append] at member
    exact List.mem_append_right _ (ih member)

theorem Undelimited.removeAll (undelimited : Undelimited content) : Undelimited (removeAll boldMarker content) :=
  fun d member => undelimited d (mem_of_mem_removeAll (by decide) member)

end Passes

end Formula

namespace Character

open Formula Text

variable {c : Character} {content : List Char}

private theorem bracketValue?_nil : c.bracketValue? [] = none := by
  rw [bracketValue?_of_nameless rfl rfl]
  rfl

private theorem braceValue?_nil : c.braceValue? [] = none := rfl

theorem resolve_of_unreferenced {opening closing : Char} (opens : opening ∈ delimiters) (closes : closing ∈ delimiters)
    (slotless : mentionsSlotLevel (within opening closing content) = false)
    (unreferenced : Unreferenced (within opening closing content)) :
    c.resolve (within opening closing content) =
      c.resolveBraces (removeAll boldMarker (c.resolveBrackets (within opening closing content))) := by
  have hash : c.resolveHashReferences (within opening closing content) = within opening closing content :=
    finds_hashReference.replacePhrases_eq_self unreferenced.hash
  have paren : c.resolveParenReferences (within opening closing content) = within opening closing content :=
    finds_parenReference.replacePhrases_eq_self unreferenced.paren
  have solid : ∀ d ∈ delimiters, isBlank d = false ∧ isPathChar d = false := forall_of_all (by decide)
  have unnamed : c.bareValue? (within opening closing content) = none :=
    bareValue?_within (solid opening opens).2 (solid opening opens).1 (solid closing closes).1
  rw [resolve_of_isUnnamed slotless unnamed, resolveReferences, hash, paren]

/-- Brackets come to the value of their content, or stay without its bold markers. -/
theorem resolve_brackets (undelimited : Undelimited content)
    (slotless : mentionsSlotLevel (within '[' ']' content) = false) (unreferenced : Unreferenced (within '[' ']' content)) :
    c.resolve (within '[' ']' content) =
      (c.bracketValue? content).getD (within '[' ']' (removeAll boldMarker content)) := by
  have brackets : c.resolveBrackets (within '[' ']' content) =
      (c.bracketValue? content).getD (within '[' ']' content) :=
    replacePhrases_within (undelimited.not_mem (by decide)) fun _ => by rw [bracketValue?_nil]; rfl
  rw [resolve_of_unreferenced (by decide) (by decide) slotless unreferenced, brackets]
  cases found : c.bracketValue? content with
  | some text => exact resolveBraces_removeAll_numberText (isNumberText_of_bracketValue? found)
  | none =>
    have braces : '{' ∉ within '[' ']' (removeAll boldMarker content) :=
      not_mem_within (undelimited.removeAll.not_mem (by decide)) (by decide)
    exact (congrArg _ (removeAll_boldMarker_within (by decide) (by decide))).trans (resolveBraces_eq_self braces)

/-- Braces come to the value of their content without its bold markers, or stay without them. -/
theorem resolve_braces (undelimited : Undelimited content)
    (slotless : mentionsSlotLevel (within '{' '}' content) = false) (unreferenced : Unreferenced (within '{' '}' content)) :
    c.resolve (within '{' '}' content) =
      (c.braceValue? (removeAll boldMarker content)).getD (within '{' '}' (removeAll boldMarker content)) := by
  have brackets : c.resolveBrackets (within '{' '}' content) = within '{' '}' content :=
    resolveBrackets_eq_self (not_mem_within (undelimited.not_mem (by decide)) (by decide))
  rw [resolve_of_unreferenced (by decide) (by decide) slotless unreferenced, brackets,
    removeAll_boldMarker_within (by decide) (by decide)]
  exact replacePhrases_within (undelimited.removeAll.not_mem (by decide)) fun _ => by rw [braceValue?_nil]; rfl

end Character

end HeroSheet
