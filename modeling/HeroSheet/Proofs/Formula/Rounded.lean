import HeroSheet.Proofs.Formula.Inlined

/-!
Rounding in brackets. A call of a wrapper in brackets comes to the wrapper of its argument, for every argument but
one: a plain name alone is taken for a reference in parentheses before the brackets are looked at, so that no call
is left in them.
-/

namespace HeroSheet

namespace Formula

open Text

section NumberText

variable {d : Char} {text : List Char}

/-- The text of a number that is neither infinite nor undefined. -/
def IsNumberText (text : List Char) : Prop :=
  (∃ n, text = integerText n) ∨ ∃ x : Binary64, x.isFinite ∧ text = renderNumber x

theorem isNumberText_integerText (n : Int) : IsNumberText (integerText n) := Or.inl ⟨n, rfl⟩

theorem isNumberText_renderNumber {x : Binary64} (finite : x.isFinite) : IsNumberText (renderNumber x) :=
  Or.inr ⟨x, finite, rfl⟩

theorem isNumberText_apply {w : Wrapper} {x : Binary64} (finite : x.isFinite) : IsNumberText (w.apply x) := by
  unfold Wrapper.apply
  simp only
  split
  · exact isNumberText_integerText _
  · refine isNumberText_renderNumber ?_
    cases x with
    | finite negative size => rfl
    | infinite | nan => cases finite

theorem IsNumberText.chars (number : IsNumberText text) : ∀ d ∈ text, IsNumberChar d := by
  have integral : ∀ own ∈ '-' :: asciiDigits, own.isDigit ∨ own ∈ ['.', '-', '+', 'e'] := forall_of_all (by decide)
  rcases number with ⟨n, rfl⟩ | ⟨x, finite, rfl⟩
  · exact fun d member => integral d (mem_of_mem_integerText member)
  · exact isNumberChar_of_renderNumber finite

theorem IsNumberText.ne_nil (number : IsNumberText text) : text ≠ [] := by
  rcases number with ⟨n, rfl⟩ | ⟨x, finite, rfl⟩
  · obtain ⟨negative, eq, _⟩ := integerText_eq n
    rw [eq]
    exact List.append_ne_nil_of_right_ne_nil _ (magnitudeText_ne_nil n)
  · exact renderNumber_ne_nil finite

end NumberText

namespace Wrapper

theorem name_chars (w : Wrapper) : ∀ d ∈ w.name, d ≠ '(' ∧ d ≠ '#' ∧ d ≠ ']' ∧ d ≠ '{' ∧ d ≠ '*' ∧ isBlank d = false := by
  cases w <;> exact forall_of_all (by decide)

private theorem argument?_call (w own : Wrapper) {inner : List Char} (present : inner ≠ []) :
    own.argument? (w.name ++ '(' :: (inner ++ [')'])) = if own = w then some inner else none := by
  have whole : w.name ++ '(' :: (inner ++ [')']) = (w.name ++ ['(']) ++ (inner ++ [')']) := by simp
  have other : own ≠ w → (own.name ++ ['(']).isPrefixOf (w.name ++ '(' :: (inner ++ [')'])) = false := by
    cases own <;> cases w <;> first | exact fun apart => absurd rfl apart | exact fun _ => rfl
  by_cases same : own = w
  · subst same
    have opens : (own.name ++ ['(']).isPrefixOf (own.name ++ '(' :: (inner ++ [')'])) = true := by
      rw [whole]
      exact List.isPrefixOf_iff_prefix.mpr (List.prefix_append _ _)
    have ends : (own.name ++ '(' :: (inner ++ [')'])).getLast? = some ')' := by
      rw [whole, ← List.append_assoc, List.getLast?_append]
      rfl
    have content : ((own.name ++ '(' :: (inner ++ [')'])).drop (own.name ++ ['(']).length).dropLast = inner := by
      rw [whole, List.drop_left, List.dropLast_concat]
    have some : inner.isEmpty = false := List.isEmpty_eq_false_iff.mpr present
    simp only [argument?, opens, ends, content, some, if_true]
    rfl
  · simp only [argument?, other same, Bool.false_and, Bool.false_eq_true, if_false, if_neg same]

theorem wrapped?_call (w : Wrapper) {inner : List Char} (present : inner ≠ []) :
    wrapped? (w.name ++ '(' :: (inner ++ [')'])) = some (w, inner) := by
  cases w <;> simp [wrapped?, Wrapper.all, argument?_call _ _ present]

end Wrapper

/-- A call of a wrapper in brackets. -/
def Arithmetic.inBrackets (w : Wrapper) (e : Arithmetic Leaf (.chain .sum)) : List Char :=
  '[' :: (w.name ++ '(' :: (e.text Leaf.text ++ [')', ']']))

end Formula

namespace Character

open Formula Arithmetic Text

variable {c : Character} {values : List Char → Int} {e : Arithmetic Leaf (.chain .sum)} {cs content text : List Char}

section Bag

private theorem isFinite_of_ofNumber {x : Binary64} {n : Int} (whole : Value.ofNumber x = .int n) :
    (Binary64.ofInt n).isFinite := by
  unfold Value.ofNumber at whole
  split at whole
  · rename_i integral
    cases x with
    | infinite | nan => cases integral
    | finite negative m =>
      have read := (Magnitude.isNumeral_floor (m := m) integral).value
      rw [readReal?_naturalText] at read
      have size : n.natAbs = m.floor := by
        obtain rfl := Value.int.inj whole
        cases negative with
        | true => exact (Int.natAbs_neg _).trans (Int.natAbs_natCast _)
        | false => exact Int.natAbs_natCast _
      rw [← Binary64.isFinite_ofInt_natAbs, size, Option.some.inj read]
      rfl
  · cases whole

private theorem isFinite_of_bagValue? {name : String} {n : Int} (bagged : c.bagValue? name = some (.int n)) :
    (Binary64.ofInt n).isFinite := by
  obtain ⟨held, _, same⟩ := Option.map_eq_some_iff.mp bagged
  cases held with
  | number x => exact isFinite_of_ofNumber same
  | flag b => cases same
  | text s => cases same

end Bag

/-- A text without a path that is a number keeps its names. -/
theorem substitutePaths_eq_self (unreplaced : c.replacements cs = []) : c.substitutePaths cs = cs := by
  rw [substitutePaths, unreplaced, List.mergeSort_nil, List.foldl_nil]

/-- Brackets come to the text of a number. -/
theorem isNumberText_of_bracketValue? (found : c.bracketValue? content = some text) : IsNumberText text := by
  unfold bracketValue? at found
  simp only at found
  rcases Option.or_eq_some_iff.mp found with wrapped | ⟨_, floored⟩
  · unfold wrapperValue? at wrapped
    obtain ⟨⟨w, inner⟩, _, wrapped⟩ := Option.bind_eq_some_iff.mp wrapped
    simp only at wrapped
    split at wrapped
    · obtain ⟨x, value, rfl⟩ := Option.map_eq_some_iff.mp wrapped
      exact isNumberText_apply (isFinite_of_evaluate (eq_ok_of_toOption value))
    · cases wrapped
  · split at floored
    · obtain ⟨x, _, floored⟩ := Option.bind_eq_some_iff.mp floored
      obtain ⟨n, _, rfl⟩ := Option.map_eq_some_iff.mp floored
      exact isNumberText_integerText n
    · cases floored

/-- A text that is one pair of brackets comes to the value of its content, or stays. -/
theorem resolveBrackets_enclosed (content : List Char) (present : content ≠ []) (absent : ']' ∉ content) :
    c.resolveBrackets ('[' :: (content ++ [']'])) = (c.bracketValue? content).getD ('[' :: (content ++ [']'])) :=
  replacePhrases_within absent fun none => absurd none present

theorem resolveBraces_removeAll_eq_self (braces : '{' ∉ cs) (bold : '*' ∉ cs) :
    c.resolveBraces (removeAll boldMarker cs) = cs := by
  have unmarked : removeAll boldMarker cs = cs :=
    replaceAll_eq_self (by decide) fun inside => bold (inside.subset List.mem_cons_self)
  rw [unmarked, resolveBraces_eq_self braces]

/-- The text of a number is left alone behind the brackets. -/
theorem resolveBraces_removeAll_numberText (number : IsNumberText text) :
    c.resolveBraces (removeAll boldMarker text) = text := by
  have plain : ∀ d ∈ text, d ≠ '{' ∧ d ≠ '*' := fun d member =>
    (number.chars d member).of_all (fun own => own ≠ '{' ∧ own ≠ '*') (by decide)
  exact resolveBraces_removeAll_eq_self (fun member => (plain _ member).1 rfl) fun member => (plain _ member).2 rfl

private theorem bracketValue?_call (w : Wrapper)
    (valued : ∀ path, .name path ∈ e.leaves → c.valueOf? path.text = some (.int (values path.text)))
    (finite : ∀ path, .name path ∈ e.leaves → (Binary64.ofInt (values path.text)).isFinite)
    (fits : e.FitsWith values) {x : Binary64} (value : e.valueIn values = .ok x) :
    c.bracketValue? (w.name ++ '(' :: (e.text Leaf.text ++ [')'])) = some (w.apply x) := by
  have present : e.text Leaf.text ≠ [] := text_ne_nil Leaf.text_ne_nil e
  have clean : withoutBlanks (w.name ++ '(' :: (e.text Leaf.text ++ [')'])) =
      w.name ++ '(' :: (e.text Leaf.text ++ [')']) := by
    have name : withoutBlanks w.name = w.name := by cases w <;> decide
    have inside := withoutBlanks_text e
    unfold withoutBlanks at name inside ⊢
    rw [List.filter_append, List.filter_cons_of_pos (by decide), List.filter_append, name, inside]
    rfl
  have evaluated := evaluate_text (fits.fits finite)
  rw [tree_substituted, value_tree finite, value] at evaluated
  have called : c.wrapperValue? (w.name ++ '(' :: (e.text Leaf.text ++ [')'])) = some (w.apply x) := by
    simp only [wrapperValue?, w.wrapped?_call present, Option.bind_some, substitutePaths_text valued,
      isPureArithmetic_text, if_true, evaluated]
    rfl
  simp only [bracketValue?, clean, called, Option.some_or]

section Resolved

/-- The content of the brackets behind the pass for references in parentheses. -/
def contentOf (values : List Char → Int) (w : Wrapper) (e : Arithmetic Leaf (.chain .sum)) : List Char :=
  w.name ++ ((group e).inlined values).text Leaf.text

theorem not_mem_text {d : Char} {rank : Rank} (marked : d ∉ marks) (named : isPathChar d = false)
    (numbered : isNumeralChar d = false) (e : Arithmetic Leaf rank) : d ∉ e.text Leaf.text := by
  intro member
  refine forall_mem_text (p := (· ≠ d)) (fun own mark same => marked (same ▸ mark)) ?_ d member rfl
  rintro leaf _ own inside rfl
  cases leaf with
  | numeral n =>
    rw [n.isNumeralChar_of_mem inside] at numbered
    cases numbered
  | name path =>
    rw [isPathChar_of_isPath path.whole own inside] at named
    cases named

private theorem not_mem_inBrackets {d : Char} (marked : d ∉ marks) (named : isPathChar d = false)
    (numbered : isNumeralChar d = false) (apart : d ≠ '[' ∧ d ≠ ']') (w : Wrapper) : d ∉ e.inBrackets w := by
  intro member
  have letters : ∀ own ∈ w.name, isPathChar own := by cases w <;> exact forall_of_all (by decide)
  have parens : d ≠ '(' ∧ d ≠ ')' := by
    constructor <;> (rintro rfl; exact marked (by decide))
  simp only [inBrackets, List.mem_cons, List.mem_append, List.not_mem_nil, or_false] at member
  rcases member with same | inside | same | inside | same | same
  · exact apart.1 same
  · rw [letters d inside] at named
    cases named
  · exact parens.1 same
  · exact not_mem_text marked named numbered e inside
  · exact parens.2 same
  · exact apart.2 same

private theorem hashReference_eq_none_of_not_mem {s : List Char} (absent : '#' ∉ s) : hashReference none s = none := by
  unfold hashReference
  split
  · exact absurd (by simp) absent
  · rfl

/-- Brackets around a call are resolved to what the content comes to when its groups of one name are values. -/
theorem resolve_inBrackets (w : Wrapper) (slotless : mentionsSlotLevel (e.inBrackets w) = false)
    (bagged : ∀ path, .name path ∈ e.leaves → c.bagValue? (String.ofList path.text) = some (.int (values path.text))) :
    c.resolve (e.inBrackets w) =
      c.resolveBraces (removeAll boldMarker
        ((c.bracketValue? (contentOf values w e)).getD ('[' :: (contentOf values w e ++ [']'])))) := by
  have unnamed : c.bareValue? (e.inBrackets w) = none := by
    have enclosed : e.inBrackets w = within '[' ']' (w.name ++ '(' :: (e.text Leaf.text ++ [')'])) := by
      simp [inBrackets, within]
    rw [enclosed]
    exact bareValue?_within (by decide) (by decide) (by decide)
  have hash : c.resolveHashReferences (e.inBrackets w) = e.inBrackets w := by
    have absent : '#' ∉ e.inBrackets w := not_mem_inBrackets (by decide) (by decide) (by decide) (by decide) w
    exact finds_hashReference.replacePhrases_eq_self fun s suffix =>
      hashReference_eq_none_of_not_mem fun member => absent (suffix.subset member)
  have skip : ∀ front rest : List Char, (∀ d ∈ front, d ≠ '(') →
      c.resolveParenReferences (front ++ rest) = front ++ c.resolveParenReferences rest := by
    intro front rest apart
    induction front with
    | nil => rfl
    | cons d front ih =>
      obtain ⟨here, later⟩ := List.forall_mem_cons.mp apart
      exact (resolveParenReferences_cons here _).trans (congrArg (d :: ·) (ih later))
  have paren : c.resolveParenReferences (e.inBrackets w) = '[' :: (contentOf values w e ++ [']']) := by
    have group := resolveParenReferences_group [']'] bagged (resolveParenReferences_text bagged)
    have front : ∀ d ∈ '[' :: w.name, d ≠ '(' :=
      List.forall_mem_cons.mpr ⟨by decide, fun d member => (w.name_chars d member).1⟩
    have last : c.resolveParenReferences [']'] = [']'] := skip [']'] [] (forall_of_all (by decide))
    have written : e.inBrackets w = ('[' :: w.name) ++ ('(' :: (e.text Leaf.text ++ ')' :: [']'])) := rfl
    rw [written, skip _ _ front, group, last, contentOf]
    simp
  have present : contentOf values w e ≠ [] := by
    have name : w.name ≠ [] := by cases w <;> decide
    exact List.append_ne_nil_of_left_ne_nil name _
  have unclosed : ']' ∉ contentOf values w e := by
    intro member
    rcases List.mem_append.mp member with name | inside
    · exact (w.name_chars ']' name).2.2.1 rfl
    · exact not_mem_text (by decide) (by decide) (by decide) _ inside
  rw [resolve_of_isUnnamed slotless unnamed, resolveReferences, hash, paren, resolveBrackets_enclosed _ present unclosed]

/-- Rounding in brackets works: a call of the wrapper comes to the wrapper of the value of its argument. -/
def RoundsInBrackets (c : Character) (w : Wrapper) (e : Arithmetic Leaf (.chain .sum)) (values : List Char → Int) :
    Prop := ∀ x, e.valueIn values = .ok x → c.resolve (e.inBrackets w) = w.apply x

theorem resolve_of_bracketValue? {w : Wrapper} (slotless : mentionsSlotLevel (e.inBrackets w) = false)
    (bagged : ∀ path, .name path ∈ e.leaves → c.bagValue? (String.ofList path.text) = some (.int (values path.text)))
    (found : c.bracketValue? (contentOf values w e) = some text) : c.resolve (e.inBrackets w) = text := by
  rw [resolve_inBrackets w slotless bagged, found, Option.getD_some]
  exact resolveBraces_removeAll_numberText (isNumberText_of_bracketValue? found)

theorem contentOf_of_plain {w : Wrapper} {path : PathName} (plain : e.plainName? = some path) :
    contentOf values w e = w.name ++ integerText (values path.text) := by
  simp only [contentOf, inlined, plain, text_written]

private theorem contentOf_of_not_plain {w : Wrapper} (plain : e.plainName? = none) :
    contentOf values w e = w.name ++ '(' :: ((e.inlined values).text Leaf.text ++ [')']) := by
  simp only [contentOf, inlined, plain, Arithmetic.text]

private theorem resolve_of_unvalued {w : Wrapper} {path : PathName}
    (slotless : mentionsSlotLevel (e.inBrackets w) = false)
    (bagged : ∀ path, .name path ∈ e.leaves → c.bagValue? (String.ofList path.text) = some (.int (values path.text)))
    (plain : e.plainName? = some path)
    (unvalued : c.bracketValue? (w.name ++ integerText (values path.text)) = none) :
    c.resolve (e.inBrackets w) = '[' :: (w.name ++ integerText (values path.text) ++ [']']) := by
  have chars : ∀ d ∈ '[' :: (w.name ++ integerText (values path.text) ++ [']']), d ≠ '{' ∧ d ≠ '*' := by
    intro d member
    simp only [List.mem_cons, List.mem_append, List.not_mem_nil, or_false] at member
    rcases member with rfl | (name | number) | rfl
    · decide
    · exact ⟨(w.name_chars d name).2.2.2.1, (w.name_chars d name).2.2.2.2.1⟩
    · exact ((isNumberText_integerText _).chars d number).of_all (fun d => d ≠ '{' ∧ d ≠ '*') (by decide)
    · decide
  rw [resolve_inBrackets w slotless bagged, contentOf_of_plain plain, unvalued, Option.getD_none,
    resolveBraces_removeAll_eq_self (fun member => (chars _ member).1 rfl) fun member => (chars _ member).2 rfl]

/-- Rounding in brackets works exactly when the formula does not wait for a slot level and its argument is no plain
name, unless what is left of the call of a plain name comes to the same. -/
theorem roundsInBrackets_iff (c : Character) (w : Wrapper) (e : Arithmetic Leaf (.chain .sum))
    (values : List Char → Int)
    (named : ∀ path, .name path ∈ e.leaves →
      c.bagValue? (String.ofList path.text) = some (.int (values path.text)) ∧
        c.valueOf? path.text = some (.int (values path.text)))
    (fits : e.FitsWith values) {x : Binary64} (value : e.valueIn values = .ok x) :
    c.RoundsInBrackets w e values ↔
      mentionsSlotLevel (e.inBrackets w) = false ∧
        ∀ path, e.plainName? = some path →
          c.bracketValue? (w.name ++ integerText (values path.text)) = some (w.apply x) := by
  have bagged := fun path member => (named path member).1
  have finite := fun path member => isFinite_of_bagValue? (named path member).1
  have numeric := (isNumberText_apply (w := w) (isFinite_of_value value)).chars
  have unopened : ∀ rest, '[' :: rest ≠ w.apply x := by
    intro rest same
    exact (numeric '[' (same ▸ List.mem_cons_self)).of_all (· ≠ '[') (by decide) rfl
  constructor
  · intro rounds
    have result := rounds x value
    have slotless : mentionsSlotLevel (e.inBrackets w) = false := by
      by_contra waits
      rw [resolve, if_pos (by simpa using waits)] at result
      exact unopened _ result
    refine ⟨slotless, ?_⟩
    intro path plain
    cases found : c.bracketValue? (w.name ++ integerText (values path.text)) with
    | some own =>
      rw [← contentOf_of_plain plain] at found
      rw [resolve_of_bracketValue? slotless bagged found] at result
      rw [result]
    | none =>
      rw [resolve_of_unvalued slotless bagged plain found] at result
      exact absurd result (unopened _)
  · rintro ⟨slotless, alone⟩ own again
    obtain rfl : own = x := Except.ok.inj (again.symm.trans value)
    refine resolve_of_bracketValue? slotless bagged ?_
    cases plain : e.plainName? with
    | some path =>
      rw [contentOf_of_plain plain]
      exact alone path plain
    | none =>
      rw [contentOf_of_not_plain plain]
      refine bracketValue?_call w (fun path member => (named path (name_mem_leaves_inlined member)).2)
        (fun path member => finite path (name_mem_leaves_inlined member)) (fits.inlined finite) ?_
      rw [valueIn_inlined finite, value]

/-- The expression `level`. -/
def levelAlone : Arithmetic Leaf (.chain .sum) :=
  .alone (.alone (.leaf (.name ⟨['l', 'e', 'v', 'e', 'l'], by decide⟩)))

/-- The expression `level/2`. -/
def halfLevel : Arithmetic Leaf (.chain .sum) :=
  .alone (.binary .div rfl (.alone (.leaf (.name ⟨['l', 'e', 'v', 'e', 'l'], by decide⟩)))
    (.leaf (.numeral (.ofNat 2))))

theorem level_leveled {path : PathName} (level : path.text = ['l', 'e', 'v', 'e', 'l']) :
    (leveled 3).bagValue? (String.ofList path.text) = some (.int 3) ∧
      (leveled 3).valueOf? path.text = some (.int 3) := by
  rw [level]
  exact ⟨by decide +kernel, by decide +kernel⟩

/-- The brackets `[ceil(level)]` lose the call. -/
theorem not_roundsInBrackets_level :
    let values := fun _ : List Char => (3 : Int)
    (∀ path, .name path ∈ levelAlone.leaves →
      (leveled 3).bagValue? (String.ofList path.text) = some (.int (values path.text)) ∧
        (leveled 3).valueOf? path.text = some (.int (values path.text))) ∧
      levelAlone.FitsWith values ∧ levelAlone.inBrackets .ceil = "[ceil(level)]".toList ∧
      ¬ (leveled 3).RoundsInBrackets .ceil levelAlone values := by
  intro values
  have named : ∀ path, .name path ∈ levelAlone.leaves →
      (leveled 3).bagValue? (String.ofList path.text) = some (.int (values path.text)) ∧
        (leveled 3).valueOf? path.text = some (.int (values path.text)) := by
    intro path member
    obtain rfl := Leaf.name.inj (List.mem_singleton.mp member)
    exact level_leveled rfl
  have fits : levelAlone.FitsWith values :=
    ⟨by decide +kernel, by decide +kernel, fun numeral member => by cases List.mem_singleton.mp member⟩
  refine ⟨named, fits, rfl, ?_⟩
  intro rounds
  have value : levelAlone.valueIn values = .ok (.ofInt 3) :=
    value_number (Binary64.isFinite_ofInt (by decide +kernel))
  have content := resolve_inBrackets (c := leveled 3) (e := levelAlone) .ceil (by decide +kernel)
    fun path member => (named path member).1
  -- the content is `ceil3`, which names no variable
  have unreplaced : (leveled 3).replacements "ceil3".toList = [] := by decide +kernel
  have unvalued : (leveled 3).bracketValue? (contentOf values .ceil levelAlone) = none := by
    have same := substitutePaths_eq_self unreplaced
    have text : contentOf values .ceil levelAlone = "ceil3".toList := by decide +kernel
    have clean : withoutBlanks "ceil3".toList = "ceil3".toList := by decide +kernel
    have uncalled : (leveled 3).wrapperValue? "ceil3".toList = none := by decide +kernel
    have impure : isPureArithmetic "ceil3".toList = false := by decide +kernel
    rw [text]
    simp only [bracketValue?, clean, uncalled, same, impure, Option.none_or, Bool.false_eq_true, if_false]
  rw [unvalued, rounds _ value] at content
  revert content
  decide +kernel

/-- In `[ceil(level/2)]` the call stays. -/
theorem roundsInBrackets_halfLevel :
    let values := fun _ : List Char => (3 : Int)
    (∀ path, .name path ∈ halfLevel.leaves →
      (leveled 3).bagValue? (String.ofList path.text) = some (.int (values path.text)) ∧
        (leveled 3).valueOf? path.text = some (.int (values path.text))) ∧
      halfLevel.FitsWith values ∧ (leveled 3).RoundsInBrackets .ceil halfLevel values ∧
      (leveled 3).resolve "[ceil(level/2)]".toList = "2".toList := by
  intro values
  have named : ∀ path, .name path ∈ halfLevel.leaves →
      (leveled 3).bagValue? (String.ofList path.text) = some (.int (values path.text)) ∧
        (leveled 3).valueOf? path.text = some (.int (values path.text)) := by
    intro path member
    simp only [halfLevel, leaves, List.singleton_append, List.mem_cons, List.not_mem_nil, or_false, reduceCtorEq,
      Leaf.name.injEq] at member
    subst member
    exact level_leveled rfl
  have fits : halfLevel.FitsWith values := by
    refine ⟨by decide +kernel, by decide +kernel, ?_⟩
    intro numeral member
    simp only [halfLevel, leaves, List.singleton_append, List.mem_cons, List.not_mem_nil, or_false, reduceCtorEq,
      false_or, Leaf.numeral.injEq] at member
    subst member
    rw [Numeral.value_ofNat]
    exact Binary64.isFinite_ofInt (by decide +kernel)
  have rounded : ((halfLevel.valueIn values).toOption.map (Wrapper.apply .ceil)) = some "2".toList := by decide +kernel
  cases value : halfLevel.valueIn values with
  | error fault =>
    rw [value] at rounded
    cases rounded
  | ok x =>
    have rounds := (roundsInBrackets_iff (leveled 3) .ceil halfLevel values named fits value).mpr
      ⟨by decide +kernel, fun path plain => absurd plain (Option.some_ne_none path).symm⟩
    rw [value] at rounded
    exact ⟨named, fits, rounds, (rounds x value).trans (Option.some.inj rounded)⟩

end Resolved

end Character

end HeroSheet
