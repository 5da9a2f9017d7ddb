import HeroSheet.Proofs.Formula.Called
import HeroSheet.Proofs.Formula.Expressed

/-!
Rounding in brackets and in braces. Brackets look for the wrapper before they put values for names, braces put a value
for the name of the wrapper too. So a call rounds alike in both unless a variable is called as the wrapper is.
-/

namespace HeroSheet

namespace Formula

open PhraseReader Text

/-- The call of the wrapper on a text. -/
def Wrapper.call (w : Wrapper) (cs : List Char) : List Char := w.name ++ '(' :: (cs ++ [')'])

section Call

variable {cs : List Char} {opening closing : Char} (w : Wrapper)

theorem forall_mem_call {p : Char → Prop} (name : ∀ d ∈ w.name, p d) (opens : p '(') (argument : ∀ d ∈ cs, p d)
    (closes : p ')') : ∀ d ∈ w.call cs, p d := by
  refine List.forall_mem_append.mpr ⟨name, List.forall_mem_cons.mpr ⟨opens, ?_⟩⟩
  exact List.forall_mem_append.mpr ⟨argument, List.forall_mem_singleton.mpr closes⟩

theorem undelimited_call (undelimited : Undelimited cs) : Undelimited (w.call cs) := by
  have name : ∀ d ∈ w.name, d ∉ delimiters := by cases w <;> exact forall_of_all (by decide)
  exact forall_mem_call w name (by decide) undelimited (by decide)

private theorem withoutBlanks_call (solid : ∀ d ∈ cs, isBlank d = false) : withoutBlanks (w.call cs) = w.call cs := by
  have name : ∀ d ∈ w.name, isBlank d = false := fun d member => (w.name_chars d member).2.2.2.2.2
  have clean := forall_mem_call w name rfl solid rfl
  exact List.filter_eq_self.mpr fun d member => by simp [clean d member]

/-- A multiplication sign in the call stands between operands of its argument. -/
theorem removeAll_boldMarker_call (stars : StarsApart cs) : removeAll boldMarker (w.call cs) = w.call cs := by
  have nothing : StarsApart [] := starsApart_of_not_mem List.not_mem_nil
  have name : StarsApart w.name := starsApart_of_not_mem (by cases w <;> decide)
  have whole := name.join (d := '(') (stars.join nothing (d := ')') (absurd · (by decide))) (absurd · (by decide))
  exact replaceAll_eq_self (by decide) whole.single

/-- The call refers to nothing in parentheses, since its argument has no letter. -/
theorem unreferenced_call (letterless : Letterless cs) (opens : opening ≠ '(') (closes : isNameStart closing = false) :
    Unreferenced (within opening closing (w.call cs)) := by
  have written : within opening closing (w.call cs) = (opening :: w.name) ++ ('(' :: (cs ++ [')', closing])) := by
    simp [within, Wrapper.call]
  have front : ∀ d ∈ opening :: w.name, d ≠ '(' :=
    List.forall_mem_cons.mpr ⟨opens, fun d member => (w.name_chars d member).1⟩
  have behind : Letterless ('(' :: (cs ++ [')', closing])) := by
    refine List.forall_mem_cons.mpr ⟨rfl, List.forall_mem_append.mpr ⟨letterless, ?_⟩⟩
    exact List.forall_mem_cons.mpr ⟨rfl, List.forall_mem_singleton.mpr closes⟩
  have each : ∀ {recognise : Recogniser (List Char)}, (∀ s, s.head? ≠ some '(' → recognise none s = none) →
      FindsNothing recognise ('(' :: (cs ++ [')', closing])) →
        FindsNothing recognise (within opening closing (w.call cs)) := by
    intro recognise starts nothing
    rw [written]
    generalize opening :: w.name = before at front
    induction before with
    | nil => exact nothing
    | cons d before ih =>
      obtain ⟨here, later⟩ := List.forall_mem_cons.mp front
      intro s suffix
      rcases List.suffix_cons_iff.mp suffix with rfl | inside
      · exact starts _ fun same => here (Option.some.inj same)
      · exact ih later s inside
  have rest := unreferenced_of_letterless behind
  exact ⟨each Character.hashReference_eq_none rest.hash, each Character.parenReference_eq_none rest.paren⟩

theorem letterless_closed (letterless : Letterless cs) : Letterless (cs ++ [')']) :=
  List.forall_mem_append.mpr ⟨letterless, List.forall_mem_singleton.mpr rfl⟩

theorem not_mentionsSlotLevel_call (rounds : w ≠ .abs) (letterless : Letterless cs) :
    mentionsSlotLevel (w.call cs) = false := by
  have written : w.call cs = (w.name ++ ['(']) ++ (cs ++ [')']) := by simp [Wrapper.call]
  have front : ∀ d ∈ w.name ++ ['('], d ∉ slotLevelInitials := by
    cases w with
    | abs => exact absurd rfl rounds
    | _ => exact forall_of_all (by decide)
  rw [written, mentionsSlotLevel_append_iff front]
  exact (letterless_closed letterless).not_mentionsSlotLevel

end Call

end Formula

namespace Character

open Formula PhraseReader Text

variable {c : Character} {cs : List Char} {w : Wrapper} {x : Binary64}

section Passes

/-- The name of a wrapper stands for the variable of that name, and for nothing else. -/
theorem valueOf?_name (w : Wrapper) : c.valueOf? w.name = c.bagValue? (String.ofList w.name) := by
  have plain : IsPlainName w.name := ⟨by cases w <;> decide, by cases w <;> exact forall_of_all (by decide)⟩
  have score : c.scoreReference? w.name = none := by cases w <;> rfl
  have derived : c.derivedReference? w.name = none := by cases w <;> rfl
  have same : ∀ name ∈ spellings w.name, name = w.name := by cases w <;> exact forall_of_all (by decide)
  have known : c.valueOf? w.name = (c.modifierReference? w.name).or ((c.scoreReference? w.name).or
      ((c.derivedReference? w.name).or ((c.bagValue? (String.ofList w.name)).or (c.spelledReference? w.name)))) := by
    cases w <;> rfl
  rw [known, modifierReference?_of_plain plain, score, derived, Option.none_or, Option.none_or, Option.none_or]
  rw [bagValue?]
  cases found : c.heldVariable? (String.ofList w.name) with
  | some held => rfl
  | none =>
    refine List.findSome?_eq_none_iff.mpr fun name member => ?_
    rw [same name member, found]
    rfl

/-- In brackets the wrapper is found before values are put for names. -/
theorem resolve_brackets_call (w : Wrapper) (expression : IsExpression (.chain .sum) cs)
    (solid : ∀ d ∈ cs, isBlank d = false) (rounds : w ≠ .abs) (ok : evaluate cs = .ok x) :
    c.resolve (within '[' ']' (w.call cs)) = w.apply x := by
  have letterless := expression.letterless
  have kept : c.substitutePaths cs = cs := by
    refine substitutePaths_eq_self ?_
    rw [replacements, finds_path.phrases_eq_nil (findsNothing_path letterless), List.foldl_nil]
  have called : c.wrapperValue? (w.call cs) = some (w.apply x) := by
    simp only [wrapperValue?, Wrapper.call, w.wrapped?_call expression.ne_nil, Option.bind_some, kept,
      expression.isPureArithmetic, if_true, ok]
    rfl
  have bracket : c.bracketValue? (w.call cs) = some (w.apply x) := by
    simp only [bracketValue?, withoutBlanks_call w solid, called, Option.some_or]
  rw [resolve_brackets (undelimited_call w expression.undelimited)
    ((mentionsSlotLevel_within (by decide) (by decide)).trans (not_mentionsSlotLevel_call w rounds letterless))
    (unreferenced_call w letterless (by decide) (by decide)), bracket, Option.getD_some]

/-- What braces put for the name of the wrapper. -/
def calledAs (c : Character) (w : Wrapper) : List Char :=
  ((c.bagValue? (String.ofList w.name)).map (·.render)).getD w.name

private theorem substituteValues_call (w : Wrapper) (letterless : Letterless cs) :
    c.substituteValues (w.call cs) = c.calledAs w ++ '(' :: (cs ++ [')']) := by
  have found : path none w.name = some (w.name, w.name.length) := by cases w <;> rfl
  have present : w.name ≠ [] := by cases w <;> decide
  rw [substituteValues, Wrapper.call, finds_path.replacePhrases_append (partedBy_path (by decide)),
    replacePhrases_of_whole _ present found,
    finds_path.replacePhrases_eq_self (findsNothing_path (letterless_closed letterless)), valueOf?_name]
  rfl

/-- In braces the call comes to the value of what is put for it; what has none is no number. -/
theorem resolve_braces_call_iff (w : Wrapper) (expression : IsExpression (.chain .sum) cs) (rounds : w ≠ .abs)
    {text : List Char} (number : IsNumberText text) :
    c.resolve (within '{' '}' (w.call cs)) = text ↔
      ∃ y, evaluate (c.calledAs w ++ '(' :: (cs ++ [')'])) = .ok y ∧ renderNumber y = text := by
  have letterless := expression.letterless
  have resolved := resolve_braces (c := c) (undelimited_call w expression.undelimited)
    ((mentionsSlotLevel_within (by decide) (by decide)).trans (not_mentionsSlotLevel_call w rounds letterless))
    (unreferenced_call w letterless (by decide) (by decide))
  rw [removeAll_boldMarker_call w expression.starsApart] at resolved
  have opened : (c.calledAs w ++ '(' :: (cs ++ [')'])).any isEvaluable :=
    List.any_eq_true.mpr ⟨'(', by simp, by decide⟩
  have plain : ∀ d ∈ text, d ≠ '(' ∧ d ≠ '{' := fun d member =>
    (number.chars d member).of_all (fun own => own ≠ '(' ∧ own ≠ '{') (by decide)
  rw [resolved]
  simp only [braceValue?, substituteValues_call w letterless, opened, if_true]
  cases evaluated : evaluate (c.calledAs w ++ '(' :: (cs ++ [')'])) with
  | ok y =>
    simp only [Except.toOption, Option.map_some, Option.some_or, Option.getD_some, Except.ok.injEq, exists_eq_left']
  | error fault =>
    simp only [Except.toOption, Option.map_none, Option.none_or, reduceCtorEq, false_and, exists_false, iff_false]
    split
    · rw [Option.getD_some]
      rintro rfl
      exact (plain '(' (by simp)).1 rfl
    · rw [Option.getD_none]
      rintro rfl
      exact (plain '{' (by simp [within])).2 rfl

end Passes

section Alike

/-- The call comes to what the wrapper makes of the number, in brackets and in braces. -/
def RoundsAlike (c : Character) (w : Wrapper) (cs : List Char) (x : Binary64) : Prop :=
  c.resolve (within '[' ']' (w.call cs)) = w.apply x ∧ c.resolve (within '{' '}' (w.call cs)) = w.apply x

/-- A call of a rounding function on a text without letters and blanks that has a value, itself within the limits, rounds
alike in brackets and in braces exactly when a variable of its name, if there is one, makes no difference in braces. -/
theorem roundsAlike_iff (c : Character) (w : Wrapper) (cs : List Char) (x : Binary64) (rounds : w ≠ .abs)
    (unlettered : ∀ d ∈ cs, isLetter d = false) (solid : ∀ d ∈ cs, isBlank d = false) (ok : evaluate cs = .ok x)
    (limits : ∀ fault, evaluate (w.call cs) = .error fault → ¬ fault.ExceedsLimit) :
    c.RoundsAlike w cs x ↔
      ∀ v, c.bagValue? (String.ofList w.name) = some v →
        ∃ y, evaluate (v.render ++ '(' :: (cs ++ [')'])) = .ok y ∧ renderNumber y = w.apply x := by
  have expression := isExpression_of_evaluate unlettered solid ok
  have finite := isFinite_of_evaluate ok
  have brackets := resolve_brackets_call (c := c) w expression solid rounds ok
  have braces := resolve_braces_call_iff (c := c) w expression rounds (isNumberText_apply (w := w) finite)
  rw [RoundsAlike, braces, calledAs]
  cases bagged : c.bagValue? (String.ofList w.name) with
  | some v => simp [brackets]
  | none =>
    obtain ⟨f, function⟩ := Wrapper.exists_function rounds
    obtain ⟨name, named, single⟩ := Wrapper.of_function? function
    obtain ⟨n, rounded, exact, text⟩ := Wrapper.exists_roundTo? function finite
    rcases limited_evaluate_call single named ok rounded exact.isFinite with called | ⟨fault, failed, exceeds⟩
    · rw [name] at called
      simp only [brackets, Option.map_none, Option.getD_none, reduceCtorEq, false_implies, implies_true, true_and,
        iff_true]
      exact ⟨_, called, (renderNumber_of_isExact exact).trans text.symm⟩
    · rw [name] at failed
      exact absurd exceeds (limits fault failed)

/-- A half below zero is rounded upward in both, through the parentheses of the argument. -/
theorem roundsAlike_half :
    (evaluate "-(3/2)".toList = .ok (.ofRatio true 3 2) ∧
      ∀ fault, evaluate (Wrapper.round.call "-(3/2)".toList) = .error fault → ¬ fault.ExceedsLimit) ∧
      plain.resolve "[round(-(3/2))]".toList = "-1".toList ∧ plain.resolve "{round(-(3/2))}".toList = "-1".toList := by
  have ok : evaluate "-(3/2)".toList = .ok (.ofRatio true 3 2) := eq_ok_of_toOption (by decide +kernel)
  have called : evaluate (Wrapper.round.call "-(3/2)".toList) = .ok (.ofInt (-1)) :=
    eq_ok_of_toOption (by decide +kernel)
  have limits : ∀ fault, evaluate (Wrapper.round.call "-(3/2)".toList) = .error fault → ¬ fault.ExceedsLimit := by
    intro fault failed
    rw [called] at failed
    cases failed
  have alike := roundsAlike_iff plain .round "-(3/2)".toList (.ofRatio true 3 2) (by decide)
    (forall_of_all (by decide)) (forall_of_all (by decide)) ok limits
  have unbagged : plain.bagValue? (String.ofList Wrapper.round.name) = none := by decide
  obtain ⟨brackets, braces⟩ := alike.mpr fun v bagged => by rw [unbagged] at bagged; cases bagged
  have text : Wrapper.round.apply (.ofRatio true 3 2) = "-1".toList := by decide +kernel
  exact ⟨⟨ok, limits⟩, brackets.trans text, braces.trans text⟩

/-- Braces put the value of a variable for the name of the function. -/
theorem not_roundsAlike_lowFloor :
    lowFloor.resolve "[floor(5/2)]".toList = "2".toList ∧ lowFloor.resolve "{floor(5/2)}".toList = "-3(5/2)".toList ∧
      ¬ ∀ (c : Character) (w : Wrapper) (cs : List Char) (x : Binary64), w ≠ .abs → (∀ d ∈ cs, isLetter d = false) →
        (∀ d ∈ cs, isBlank d = false) → evaluate cs = .ok x →
          (∀ fault, evaluate (w.call cs) = .error fault → ¬ fault.ExceedsLimit) → c.RoundsAlike w cs x := by
  have brackets : lowFloor.resolve "[floor(5/2)]".toList = "2".toList := by decide +kernel
  have braces : lowFloor.resolve "{floor(5/2)}".toList = "-3(5/2)".toList := by decide +kernel
  refine ⟨brackets, braces, fun alike => ?_⟩
  have called : evaluate (Wrapper.floor.call "5/2".toList) = .ok (.ofInt 2) := eq_ok_of_toOption (by decide +kernel)
  have both := alike lowFloor .floor "5/2".toList (.ofRatio false 5 2) (by decide) (forall_of_all (by decide))
    (forall_of_all (by decide)) (eq_ok_of_toOption (by decide +kernel))
    fun fault failed => by rw [called] at failed; cases failed
  exact absurd ((braces.symm.trans both.2).trans (both.1.symm.trans brackets)) (by decide)

end Alike

end Character

end HeroSheet
