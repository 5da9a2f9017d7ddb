import HeroSheet.Proofs.Formula.Enclosed

namespace HeroSheet

namespace Formula

open Text

/-- A name that starts with a letter or an underscore and has no points. -/
structure IsPlainName (name : List Char) : Prop where
  whole : isPath name
  chars : ∀ d ∈ name, isNameChar d

def IsPlainName.path {name : List Char} (plain : IsPlainName name) : PathName := ⟨name, plain.whole⟩

/-- The ways to refer to a variable by its name. -/
def referenceForms (name : List Char) : List (List Char) :=
  [name, within '(' ')' name, within '(' ')' ('#' :: name), within '[' ']' name, within '{' '}' name]

namespace Arithmetic

/-- The expression that is one name. -/
def ofName (path : PathName) : Arithmetic Leaf (.chain .sum) := .alone (.alone (.leaf (.name path)))

private theorem limits_ofInt_le (n : Int) : (ofInt n).size ≤ 2 ∧ (ofInt n).nesting ≤ 2 := by
  unfold ofInt
  split <;> simp [size, nesting]

private theorem fitsWith_ofName (path : PathName) (values : List Char → Int) : (ofName path).FitsWith values := by
  obtain ⟨size, nesting⟩ := limits_ofInt_le (values path.text)
  refine ⟨Nat.le_trans size (by decide), Nat.le_trans nesting (by decide), ?_⟩
  intro numeral member
  cases List.mem_singleton.mp member

private theorem valueIn_ofName {path : PathName} {values : List Char → Int}
    (finite : (Binary64.ofInt (values path.text)).isFinite) :
    (ofName path).valueIn values = .ok (.ofInt (values path.text)) :=
  value_number finite

end Arithmetic

section Names

variable {name content : List Char} {d opening closing : Char} {n : Int}

theorem IsPlainName.not_mem (plain : IsPlainName name) (other : isNameChar d = false) : d ∉ name := by
  intro member
  have char := plain.chars d member
  rw [other] at char
  cases char

theorem IsPlainName.undelimited (plain : IsPlainName name) : Undelimited name := by
  have other : ∀ d ∈ delimiters, isNameChar d = false := forall_of_all (by decide)
  exact fun d member delimiter => plain.not_mem (other d delimiter) member

theorem IsPlainName.unbold (plain : IsPlainName name) : removeAll boldMarker name = name :=
  replaceAll_eq_self (by decide) fun inside => plain.not_mem (by decide) (inside.subset List.mem_cons_self)

private theorem trim_of_isPath (whole : isPath name) : trim name = name := by
  have solid : ∀ d ∈ name, isBlank d = false := fun d member =>
    not_isBlank_of_isPathChar (isPathChar_of_isPath whole d member)
  exact strip_of_forall_mem solid

private theorem hashReference_of_plain (plain : IsPlainName name) :
    hashReference none (within '(' ')' ('#' :: name)) =
      some ('#' :: name, (within '(' ')' ('#' :: name)).length) := by
  have read : pathSpan? (name ++ [')']) = some name :=
    (pathSpan?_append (by decide) name []).trans (beq_iff_eq.mp plain.whole)
  simp only [hashReference, within, List.cons_append, read, Option.bind_some, List.drop_left, List.head?_cons, if_true]
  simp

private theorem hashReference_of_name (plain : IsPlainName name) :
    FindsNothing hashReference (within '(' ')' name) := by
  obtain ⟨letter, more, rfl, starts⟩ := exists_of_isPath plain.whole
  have unmarked : letter ≠ '#' := by
    rintro rfl
    cases starts
  have parens : '(' ∉ letter :: more ++ [')'] := by
    simp only [List.mem_append, List.mem_singleton, not_or]
    exact ⟨plain.not_mem (by decide), by decide⟩
  intro s suffix
  rcases List.suffix_cons_iff.mp suffix with rfl | later
  · unfold hashReference
    split
    · rename_i same
      exact absurd (List.cons.inj (List.cons.inj same).2).1 unmarked
    · rfl
  · exact Character.findsNothing_of_not_mem Character.hashReference_eq_none parens s later

theorem mentionsSlotLevel_within (opens : opening ∉ slotLevelInitials) (closes : foldCase closing ∉ slotLevelWord) :
    mentionsSlotLevel (within opening closing content) = mentionsSlotLevel content := by
  have front : mentionsSlotLevel ([opening] ++ (content ++ [closing])) = mentionsSlotLevel (content ++ [closing]) :=
    mentionsSlotLevel_append_iff (List.forall_mem_singleton.mpr opens)
  exact front.trans (mentionsSlotLevel_concat closes)

theorem renderNumber_of_isExact (exact : Binary64.IsExact n) : renderNumber (.ofInt n) = integerText n := by
  simp only [renderNumber, exact.isWhole, exact.truncate?, if_true]

theorem renderNumber_ofInt (small : n.natAbs ≤ power 2 53) : renderNumber (.ofInt n) = integerText n :=
  renderNumber_of_isExact (Binary64.isExact_of_small small)

/-- The text of an integer in range comes to the integer. -/
theorem evaluate_integerText (small : n.natAbs ≤ power 2 53) :
    evaluate (integerText n) = .ok (unsignedZero (.ofInt n)) := by
  have plain : 'e' ∉ integerText n := fun member => by
    have digit := mem_of_mem_integerText member
    revert digit
    decide
  rw [← renderNumber_ofInt small] at plain ⊢
  exact evaluate_renderNumber (Binary64.isFinite_ofInt small) plain

end Names

end Formula

namespace Character

open Formula Text

variable {c : Character} {name text : List Char} {n : Int}

/-- A plain name that the bag holds an integer of 53 bits under, and that means nothing else in a formula: no ability, no
proficiency bonus, and the word for the level of a slot is no part of it. -/
structure NamesInteger (c : Character) (name : List Char) (n : Int) : Prop where
  plain : IsPlainName name
  bound : c.bagValue? (String.ofList name) = some (.int n)
  small : n.natAbs ≤ power 2 53
  ability : Ability.ofExactName? (String.ofList name) = none
  derived : String.ofList name ≠ "proficiencyBonus"
  unreserved : ¬ "slotLevel".toList <:+: name

section Lookup

/-- A path with a point is no plain name. -/
theorem ofList_ne_of_plain (plain : IsPlainName name) {s : String} (pointed : '.' ∈ s.toList) :
    String.ofList name ≠ s := by
  rintro rfl
  rw [String.toList_ofList] at pointed
  exact plain.not_mem (by decide) pointed

theorem modifierReference?_of_plain (plain : IsPlainName name) : c.modifierReference? name = none := by
  refine if_neg fun found => ?_
  exact plain.not_mem (by decide) ((isInfix_of_contains found).subset (show '.' ∈ ".modifier".toList by decide))

private theorem NamesInteger.derivedReference?_eq_none (names : c.NamesInteger name n) :
    c.derivedReference? name = none := by
  have modifier := ofList_ne_of_plain names.plain (show '.' ∈ "spellList.abilityMod".toList by decide)
  have ability := ofList_ne_of_plain names.plain (show '.' ∈ "spellList.ability".toList by decide)
  have difficulty := ofList_ne_of_plain names.plain (show '.' ∈ "spellList.dc".toList by decide)
  have attack := ofList_ne_of_plain names.plain (show '.' ∈ "spellList.attackBonus".toList by decide)
  simp only [derivedReference?, names.derived, modifier, ability, difficulty, attack, or_self, if_false]

/-- The name stands for the integer wherever it is looked up, with or without `#`. -/
theorem NamesInteger.valueOf?_eq (names : c.NamesInteger name n) :
    c.valueOf? name = some (.int n) ∧ c.valueOf? ('#' :: name) = some (.int n) := by
  obtain ⟨letter, more, rfl, starts⟩ := exists_of_isPath names.plain.whole
  have unmarked : letter ≠ '#' := by
    rintro rfl
    cases starts
  have known : (c.modifierReference? (letter :: more)).or ((c.scoreReference? (letter :: more)).or
      ((c.derivedReference? (letter :: more)).or
        ((c.bagValue? (String.ofList (letter :: more))).or (c.spelledReference? (letter :: more))))) =
      some (.int n) := by
    rw [modifierReference?_of_plain names.plain, scoreReference?, names.ability, names.derivedReference?_eq_none,
      names.bound]
    rfl
  constructor
  · unfold Character.valueOf?
    split
    · rename_i same
      exact absurd (List.cons.inj same).1 unmarked
    · exact known
  · exact known

end Lookup

section Passes

/-- The passes behind those for references in parentheses leave the text of a number alone. -/
theorem resolve_numberText (number : IsNumberText text) :
    c.resolveParenReferences text = text ∧
      c.resolveBraces (removeAll boldMarker (c.resolveBrackets text)) = text := by
  have plain : ∀ d ∈ text, d ≠ '(' ∧ d ≠ '[' := fun d member =>
    (number.chars d member).of_all (fun own => own ≠ '(' ∧ own ≠ '[') (by decide)
  rw [resolveBrackets_eq_self fun member => (plain _ member).2 rfl]
  exact ⟨resolveParenReferences_eq_self fun member => (plain _ member).1 rfl,
    resolveBraces_removeAll_numberText number⟩

private theorem bareValue?_of_isPath (whole : isPath name) : c.bareValue? name = c.bagValue? (String.ofList name) := by
  simp only [bareValue?, trim_of_isPath whole, whole, if_true]

/-- A variable in parentheses comes to the integer that the bag holds under it, whatever else the name means. -/
theorem resolve_parens (plain : IsPlainName name) (bound : c.bagValue? (String.ofList name) = some (.int n))
    (slotless : mentionsSlotLevel name = false) : c.resolve (within '(' ')' name) = integerText n := by
  have found : parenReference none (within '(' ')' name) = some (name, (within '(' ')' name).length) := by
    have read := @parenReference_of_plain plain.path plain.chars []
    simpa [within, IsPlainName.path] using read
  have value : c.bagNumber? name = some (.int n) := by rw [bagNumber?, bound]; rfl
  have paren : c.resolveParenReferences (within '(' ')' name) = integerText n := by
    rw [resolveParenReferences, replacePhrases_of_whole _ (by simp [within]) found, value]
    rfl
  have hash : c.resolveHashReferences (within '(' ')' name) = within '(' ')' name :=
    finds_hashReference.replacePhrases_eq_self (hashReference_of_name plain)
  have waits : mentionsSlotLevel (within '(' ')' name) = false :=
    (mentionsSlotLevel_within (by decide) (by decide)).trans slotless
  have unnamed : c.bareValue? (within '(' ')' name) = none := bareValue?_within (by decide) (by decide) (by decide)
  rw [resolve_of_isUnnamed waits unnamed, resolveReferences, hash, paren]
  exact (resolve_numberText (isNumberText_integerText n)).2

end Passes

namespace NamesInteger

variable (names : c.NamesInteger name n)
include names

theorem finite : (Binary64.ofInt n).isFinite := Binary64.isFinite_ofInt names.small

/-- In brackets the name is replaced and the number rounded down. -/
theorem bracketValue?_eq : c.bracketValue? name = some (integerText n) := by
  let expression := Arithmetic.ofName names.plain.path
  let values : List Char → Int := fun _ => n
  have valued : ∀ path, .name path ∈ expression.leaves → c.valueOf? path.text = some (.int (values path.text)) := by
    intro path member
    obtain rfl := Leaf.name.inj (List.mem_singleton.mp member)
    exact names.valueOf?_eq.1
  have finite : ∀ path, .name path ∈ expression.leaves → (Binary64.ofInt (values path.text)).isFinite :=
    fun _ _ => names.finite
  have value : expression.valueIn values = .ok (.ofInt n) := Arithmetic.valueIn_ofName names.finite
  have bracket := bracketValue?_text valued finite (Arithmetic.fitsWith_ofName _ values)
  rw [value, Except.toOption, Option.bind_some, (Binary64.isExact_of_small names.small).floor?] at bracket
  exact bracket

/-- In braces the name is replaced and the number evaluated as it stands. -/
theorem braceValue?_eq : c.braceValue? name = some (integerText n) := by
  have found : path none name = some (name, name.length) := by
    rw [path, beq_iff_eq.mp names.plain.whole]
    rfl
  have substituted : c.substituteValues name = integerText n := by
    rw [substituteValues, replacePhrases_of_whole _ (ne_nil_of_isPath names.plain.whole) found, names.valueOf?_eq.1]
    rfl
  have evaluable : (integerText n).any isEvaluable := by
    obtain ⟨d, rest, written⟩ := List.exists_cons_of_ne_nil (isNumberText_integerText n).ne_nil
    have known : ∀ d ∈ '-' :: asciiDigits, isEvaluable d := forall_of_all (by decide +kernel)
    have member : d ∈ integerText n := written ▸ List.mem_cons_self
    exact List.any_eq_true.mpr ⟨d, member, known d (mem_of_mem_integerText member)⟩
  have value : (evaluate (integerText n)).toOption.map renderNumber = some (integerText n) := by
    rw [evaluate_integerText names.small]
    exact congrArg some ((renderNumber_unsignedZero names.finite).trans (renderNumber_ofInt names.small))
  simp only [Character.braceValue?, substituted, evaluable, if_true, value, Option.some_or]

private theorem resolve_hash (slotless : mentionsSlotLevel name = false) :
    c.resolve (within '(' ')' ('#' :: name)) = integerText n := by
  have value : c.numericValue? ('#' :: name) = some (.int n) := by rw [numericValue?, names.valueOf?_eq.2]; rfl
  have hash : c.resolveHashReferences (within '(' ')' ('#' :: name)) = integerText n := by
    rw [resolveHashReferences, replacePhrases_of_whole _ (by simp [within]) (hashReference_of_plain names.plain), value]
    rfl
  have mark : mentionsSlotLevel (['#'] ++ name) = mentionsSlotLevel name :=
    mentionsSlotLevel_append_iff (List.forall_mem_singleton.mpr (by decide))
  have waits : mentionsSlotLevel (within '(' ')' ('#' :: name)) = false :=
    (mentionsSlotLevel_within (by decide) (by decide)).trans (mark.trans slotless)
  have left := resolve_numberText (c := c) (isNumberText_integerText n)
  have unnamed : c.bareValue? (within '(' ')' ('#' :: name)) = none :=
    bareValue?_within (by decide) (by decide) (by decide)
  rw [resolve_of_isUnnamed waits unnamed, resolveReferences, hash, left.1]
  exact left.2

private theorem resolve_referenceForms (slotless : mentionsSlotLevel name = false) :
    ∀ form ∈ referenceForms name, c.resolve form = integerText n := by
  have unreferenced : ∀ {opening closing}, opening ≠ '(' → closing ≠ '(' →
      Unreferenced (within opening closing name) := fun opens closes =>
    unreferenced_of_not_mem (not_mem_within (names.plain.not_mem (by decide)) ⟨opens.symm, closes.symm⟩)
  have waits : ∀ {opening closing}, opening ∉ slotLevelInitials → foldCase closing ∉ slotLevelWord →
      mentionsSlotLevel (within opening closing name) = false := fun opens closes =>
    (mentionsSlotLevel_within opens closes).trans slotless
  have bare : c.resolve name = integerText n :=
    resolve_of_isNamed slotless ((bareValue?_of_isPath names.plain.whole).trans names.bound)
  have brackets : c.resolve (within '[' ']' name) = integerText n := by
    rw [resolve_brackets names.plain.undelimited (waits (by decide) (by decide))
      (unreferenced (by decide) (by decide)), names.bracketValue?_eq]
    rfl
  have braces : c.resolve (within '{' '}' name) = integerText n := by
    rw [resolve_braces names.plain.undelimited (waits (by decide) (by decide))
      (unreferenced (by decide) (by decide)), names.plain.unbold, names.braceValue?_eq]
    rfl
  simp only [referenceForms, List.forall_mem_cons, List.not_mem_nil, false_implies, implies_true, and_true]
  exact ⟨bare, resolve_parens names.plain names.bound slotless, names.resolve_hash slotless, brackets, braces⟩

/-- A name that mentions the level of a slot in any case resolves to itself. -/
theorem resolve_ne_of_mentions (mentions : mentionsSlotLevel name = true) : c.resolve name ≠ integerText n := by
  rw [resolve, if_pos mentions]
  intro same
  obtain ⟨letter, more, rfl, starts⟩ := exists_of_isPath names.plain.whole
  have known : ∀ d ∈ '-' :: asciiDigits, isNameStart d = false := forall_of_all (by decide +kernel)
  have digit := known letter (mem_of_mem_integerText (same ▸ List.mem_cons_self))
  rw [starts] at digit
  cases digit

/-- Every form of a reference to the name resolves to the text of the integer exactly when the name does not mention the
level of a slot in any case. -/
theorem resolve_referenceForms_iff :
    (∀ form ∈ referenceForms name, c.resolve form = integerText n) ↔ mentionsSlotLevel name = false := by
  constructor
  · intro each
    by_contra mentions
    exact names.resolve_ne_of_mentions (Bool.not_eq_false _ ▸ mentions) (each name List.mem_cons_self)
  · exact names.resolve_referenceForms

end NamesInteger

/-- A character with a variable that is called as a function is, below zero. -/
def lowFloor : Character := { plain with bag := [("floor", .number (.ofInt (-3)))] }

/-- Neither the name of a function nor a sign makes a difference. -/
theorem resolve_referenceForms_iff_floor :
    lowFloor.NamesInteger "floor".toList (-3) ∧
      lowFloor.resolve "floor".toList = "-3".toList ∧ lowFloor.resolve "(floor)".toList = "-3".toList ∧
      lowFloor.resolve "(#floor)".toList = "-3".toList ∧ lowFloor.resolve "[floor]".toList = "-3".toList ∧
      lowFloor.resolve "{floor}".toList = "-3".toList := by
  have names : lowFloor.NamesInteger "floor".toList (-3) :=
    ⟨⟨by decide, forall_of_all (by decide)⟩, by decide +kernel, by decide +kernel, by decide +kernel, by decide +kernel,
      by decide⟩
  have each := names.resolve_referenceForms_iff.mpr (by decide +kernel)
  exact ⟨names, each _ (by decide), each _ (by decide), each _ (by decide), each _ (by decide), each _ (by decide)⟩

/-- A character with a level for the slots of a pact. -/
def pactLeveled (level : Int) : Character := { plain with bag := [("pactSlotLevel", .number (.ofInt level))] }

/-- The variable for the level of pact slots is read by no form: the word is a part of its name in another case. -/
theorem not_resolve_referenceForms_pact :
    (pactLeveled 3).NamesInteger "pactSlotLevel".toList 3 ∧
      (pactLeveled 3).resolve "pactSlotLevel".toList = "pactSlotLevel".toList ∧
      ∀ form ∈ referenceForms "pactSlotLevel".toList, (pactLeveled 3).resolve form ≠ "3".toList := by
  refine ⟨⟨⟨by decide, forall_of_all (by decide)⟩, by decide +kernel, by decide +kernel, by decide +kernel,
    by decide +kernel, by decide⟩, by decide +kernel, by decide +kernel⟩

end Character

end HeroSheet
