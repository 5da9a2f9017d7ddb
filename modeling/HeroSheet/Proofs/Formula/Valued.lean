import HeroSheet.Proofs.Formula.Parts
import HeroSheet.Proofs.Formula.Substitution

/-!
Arithmetic with the values of a character. The names of an expression are replaced as if each value had been written
in the place of its name by hand, so that the text is read as the tree of the expression with values for its names;
and in brackets the expression comes to the value that it has with these, rounded down.
-/

namespace HeroSheet

namespace Formula

namespace Arithmetic

variable {rank : Rank}

/-- The expression with values for its names. -/
def substituted (values : List Char → Int) (e : Arithmetic Leaf rank) : Arithmetic Numeral rank :=
  e.bind (Leaf.replaced values)

/-- The value of the expression, where names have values. -/
def valueIn (values : List Char → Int) (e : Arithmetic Leaf rank) : Except Fault Binary64 :=
  (e.tree (Leaf.number values)).value

/-- The expression is within the limits of the evaluator, once values stand for its names. -/
structure FitsWith (values : List Char → Int) (e : Arithmetic Leaf rank) : Prop where
  size : (e.substituted values).size ≤ maxTokens
  nesting : (e.substituted values).nesting ≤ maxDepth
  numerals : ∀ numeral, .numeral numeral ∈ e.leaves → numeral.value.isFinite

section Values

variable {values : List Char → Int} {e : Arithmetic Leaf rank}

theorem FitsWith.fits (fits : e.FitsWith values)
    (finite : ∀ path, .name path ∈ e.leaves → (Binary64.ofInt (values path.text)).isFinite) :
    (e.substituted values).Fits := by
  refine ⟨fits.size, fits.nesting, ?_⟩
  intro numeral member
  obtain ⟨leaf, own, inner⟩ := mem_leaves_bind.mp member
  cases leaf with
  | numeral n => exact List.mem_singleton.mp inner ▸ fits.numerals n own
  | name path => exact isFinite_of_mem_ofInt (finite path own) numeral inner

theorem tree_substituted (values : List Char → Int) (e : Arithmetic Leaf rank) :
    (e.substituted values).tree Numeral.tree = e.tree (Leaf.tree values) := by
  rw [substituted, tree_bind]
  congr
  funext leaf
  cases leaf with
  | numeral n => rfl
  | name path => exact tree_ofInt (values path.text)

/-- A minus sign and a number come to the number below zero. -/
theorem value_tree (finite : ∀ path, .name path ∈ e.leaves → (Binary64.ofInt (values path.text)).isFinite) :
    (e.tree (Leaf.tree values)).value = e.valueIn values := by
  refine value_tree_congr fun leaf member => ?_
  cases leaf with
  | numeral n => rfl
  | name path =>
    have own := finite path member
    exact (value_integerTree own).trans (value_number own).symm

end Values

end Arithmetic

section Written

open Arithmetic

variable {rank : Rank}

theorem not_mem_leaf (leaf : Leaf) : ∀ d ∈ marks, d ∉ leaf.text := by
  cases leaf with
  | name path => exact not_mem_of_isPath path.whole
  | numeral n =>
    have other : ∀ d ∈ marks, isNumeralChar d = false := forall_of_all (by decide)
    intro d mark member
    have char := n.isNumeralChar_of_mem member
    rw [other d mark] at char
    cases char

theorem Leaf.text_ne_nil (leaf : Leaf) : leaf.text ≠ [] := by
  cases leaf with
  | numeral n => exact n.present
  | name path => exact ne_nil_of_isPath path.whole

/-- A parenthesis stands behind no word: it is the first character, or a mark stands before it. -/
theorem eq_nil_of_text_eq {inClass : Char → Bool} (apart : ∀ d ∈ marks, inClass d = false) {e : Arithmetic Leaf rank}
    {word rest : List Char} {d : Char} (paren : d = '(' ∨ d = ')') (chars : ∀ own ∈ word, inClass own)
    (eq : e.text Leaf.text = word ++ d :: rest) : word = [] ∧ d = '(' := by
  have unmarked : ∀ own ∈ marks, own ∉ word := by
    intro own mark member
    have char := chars own member
    rw [apart own mark] at char
    cases char
  induction e generalizing rest with
  | leaf leaf =>
    have bare := not_mem_leaf leaf d (by rcases paren with rfl | rfl <;> decide)
    have written : leaf.text = word ++ d :: rest := eq
    exact absurd (by simp [written]) bare
  | minus operand ih =>
    cases word with
    | nil =>
      obtain ⟨rfl, _⟩ := List.cons.inj eq
      rcases paren with same | same <;> cases same
    | cons own word =>
      obtain ⟨rfl, _⟩ := List.cons.inj eq
      exact absurd List.mem_cons_self (unmarked '-' (by decide))
  | group inner ih =>
    cases word with
    | nil =>
      obtain ⟨rfl, _⟩ := List.cons.inj eq
      exact ⟨rfl, rfl⟩
    | cons own word =>
      obtain ⟨rfl, _⟩ := List.cons.inj eq
      exact absurd List.mem_cons_self (unmarked '(' (by decide))
  | alone only ih => exact ih eq
  | binary op own left right first second =>
    have mark : op.symbol ∈ marks := by cases op <;> decide
    have other : op.symbol ≠ d := by rcases paren with rfl | rfl <;> cases op <;> decide
    rcases List.append_eq_append_iff.mp (eq : left.text Leaf.text ++ op.symbol :: right.text Leaf.text = _) with
      ⟨more, rfl, behind⟩ | ⟨more, before, behind⟩
    · cases more with
      | nil => exact absurd (List.cons.inj behind).1 other
      | cons here more =>
        obtain ⟨rfl, _⟩ := List.cons.inj behind
        exact absurd (by simp) (unmarked op.symbol mark)
    · cases more with
      | nil => exact absurd (List.cons.inj behind).1.symm other
      | cons here more =>
        obtain ⟨rfl, _⟩ := List.cons.inj behind
        exact first before

/-- A text in front of which no wrapper is opened is no call of one. -/
theorem wrapped?_eq_none {cs : List Char} (unopened : ∀ w : Wrapper, ¬ w.name ++ ['('] <+: cs) : wrapped? cs = none := by
  refine List.findSome?_eq_none_iff.mpr fun w _ => ?_
  have other : (w.name ++ ['(']).isPrefixOf cs = false :=
    Bool.eq_false_iff.mpr fun opened => unopened w (List.isPrefixOf_iff_prefix.mp opened)
  simp only [Wrapper.argument?, other, Bool.false_and, Bool.false_eq_true, if_false, Option.map_none]

private theorem wrapped?_text (e : Arithmetic Leaf rank) : wrapped? (e.text Leaf.text) = none := by
  refine wrapped?_eq_none fun w opened => ?_
  obtain ⟨rest, eq⟩ := opened
  rw [List.append_assoc, List.singleton_append] at eq
  have letters : ∀ d ∈ w.name, isNameChar d := by cases w <;> exact forall_of_all (by decide)
  obtain ⟨none, _⟩ := eq_nil_of_text_eq (forall_of_all (by decide)) (Or.inl rfl) letters eq.symm
  cases w <;> cases none

theorem withoutBlanks_text (e : Arithmetic Leaf rank) : withoutBlanks (e.text Leaf.text) = e.text Leaf.text := by
  refine List.filter_eq_self.mpr fun d member => ?_
  have solid : isBlank d = false := by
    refine forall_mem_text (p := fun d => isBlank d = false) (forall_of_all (by decide)) ?_ d member
    intro leaf _ own inside
    cases leaf with
    | numeral n => exact n.not_isBlank_of_mem inside
    | name path => exact not_isBlank_of_isPathChar (isPathChar_of_isPath path.whole own inside)
  rw [solid]
  rfl

theorem isPureArithmetic_text (e : Arithmetic Numeral rank) : isPureArithmetic (e.text Numeral.text) := by
  have present := text_ne_nil Numeral.present e
  have chars : ∀ d ∈ e.text Numeral.text, isArithmeticChar d := by
    refine forall_mem_text (forall_of_all (by decide +kernel)) fun n _ d member => ?_
    rcases n.chars d member with decimal | rfl
    · simp only [isArithmeticChar, decimal, Bool.true_or]
    · rfl
  simp only [isPureArithmetic, Bool.and_eq_true, Bool.not_eq_true', List.isEmpty_eq_false_iff]
  exact ⟨present, List.all_eq_true.mpr chars⟩

end Written

end Formula

namespace Character

open Formula Arithmetic Text

variable {c : Character} {rank : Rank} {values : List Char → Int}

section Replacements

variable {cs name : List Char} {value : Value}

theorem of_mem_replacements :
    ∀ entry ∈ c.replacements cs, entry.1 ∈ phrases (pieces path cs) ∧ c.numericValue? entry.1 = some entry.2 := by
  unfold replacements
  refine List.foldlRecOn
    (motive := fun (entries : List (List Char × Value)) => ∀ entry ∈ entries,
      entry.1 ∈ phrases (pieces path cs) ∧ c.numericValue? entry.1 = some entry.2) _ _ (by simp) ?_
  intro entries sound own found
  cases numeric : c.numericValue? own with
  | none => exact sound
  | some value =>
    intro entry put
    rcases Entries.mem_put put with rfl | old
    · exact ⟨found, numeric⟩
    · exact sound entry old

/-- A name that is put once keeps its value, for whatever is put under it again is the same. -/
theorem get?_foldl_of_mem {step : List (List Char × Value) → List Char → List (List Char × Value)}
    (puts : ∀ entries, Entries.get? (step entries name) name = some value)
    (keeps : ∀ entries own, own ≠ name → Entries.get? (step entries own) name = Entries.get? entries name)
    {names : List (List Char)} {entries : List (List Char × Value)}
    (here : name ∈ names ∨ Entries.get? entries name = some value) :
    Entries.get? (names.foldl step entries) name = some value := by
  induction names generalizing entries with
  | nil => exact here.resolve_left List.not_mem_nil
  | cons own names ih =>
    refine ih ?_
    by_cases same : own = name
    · rw [same]
      exact Or.inr (puts entries)
    · rw [keeps entries own same]
      exact here.imp_left fun member => (List.mem_cons.mp member).resolve_left (Ne.symm same)

private theorem mem_replacements (member : name ∈ phrases (pieces path cs))
    (numeric : c.numericValue? name = some value) :
    (name, value) ∈ c.replacements cs := by
  apply Entries.mem_of_get?
  unfold replacements
  refine get?_foldl_of_mem ?_ ?_ (Or.inl member)
  · intro entries
    simp only [numeric, Entries.get?_put, if_true]
  · intro entries own other
    cases read : c.numericValue? own with
    | none => rfl
    | some value => simp only [Entries.get?_put, if_neg other]

end Replacements

section Text

theorem phrases_path_text (e : Arithmetic Leaf rank) :
    phrases (pieces path (e.text Leaf.text)) = e.leaves.flatMap Leaf.names := by
  have other : ∀ d ∈ marks, isPathChar d = false := forall_of_all (by decide)
  rw [phrases_text finds_path fun _ d mark => partedBy_path (other d mark)]
  simp only [phrases_leaf]

variable {e : Arithmetic Leaf rank}
  (valued : ∀ path, .name path ∈ e.leaves → c.valueOf? path.text = some (.int (values path.text)))
include valued

theorem mem_replacements_text_iff {entry : List Char × Value} :
    entry ∈ c.replacements (e.text Leaf.text) ↔
      ∃ path, .name path ∈ e.leaves ∧ entry = (path.text, .int (values path.text)) := by
  have numeric : ∀ path, .name path ∈ e.leaves → c.numericValue? path.text = some (.int (values path.text)) :=
    fun path member => by rw [numericValue?, valued path member]; rfl
  constructor
  · intro member
    obtain ⟨found, number⟩ := of_mem_replacements entry member
    rw [phrases_path_text] at found
    obtain ⟨leaf, own, here⟩ := List.mem_flatMap.mp found
    cases leaf with
    | numeral n => cases here
    | name path =>
      obtain same : entry.1 = path.text := List.mem_singleton.mp here
      rw [same, numeric path own] at number
      exact ⟨path, own, Prod.ext same (Option.some.inj number).symm⟩
  · rintro ⟨path, own, rfl⟩
    refine mem_replacements ?_ (numeric path own)
    rw [phrases_path_text]
    exact List.mem_flatMap.mpr ⟨.name path, own, List.mem_singleton_self _⟩

/-- Names are replaced as if their values had been written in the expression. -/
theorem substitutePaths_text :
    c.substitutePaths (e.text Leaf.text) = (e.substituted values).text Numeral.text := by
  have sorted : ((c.replacements (e.text Leaf.text)).mergeSort fun a b => b.1.length ≤ a.1.length).Pairwise
      fun a b => decide (b.1.length ≤ a.1.length) :=
    List.pairwise_mergeSort (fun a b c first second => by simp only [decide_eq_true_eq] at *; omega)
      (fun a b => by simp only [Bool.or_eq_true, decide_eq_true_eq]; omega) _
  have entries : ∀ entry ∈ (c.replacements (e.text Leaf.text)).mergeSort fun a b => b.1.length ≤ a.1.length,
      ∃ path, .name path ∈ e.leaves ∧ entry = (path.text, .int (values path.text)) :=
    fun entry member => (mem_replacements_text_iff valued).mp (List.mem_mergeSort.mp member)
  have paths : ∀ entry ∈ (c.replacements (e.text Leaf.text)).mergeSort fun a b => b.1.length ≤ a.1.length,
      isPath entry.1 := by
    intro entry member
    obtain ⟨path, _, rfl⟩ := entries entry member
    exact path.whole
  refine (splice_text paths Leaf.text e).trans ?_
  rw [substituted, text_bind]
  refine text_congr fun leaf member => ?_
  cases leaf with
  | numeral n => exact splice_eq_self paths (isNameStart_of_numeral n)
  | name path =>
    refine (splice_name (.int (values path.text)) (sorted.imp of_decide_eq_true) paths ?_ ?_ ?_).trans
      (text_ofInt _).symm
    · intro entry inside same
      obtain ⟨other, _, rfl⟩ := entries entry inside
      exact congrArg (fun name => Value.int (values name)) same
    · exact List.mem_mergeSort.mpr ((mem_replacements_text_iff valued).mpr ⟨path, member, rfl⟩)
    · exact isNameStart_of_integerText (values path.text)

end Text

section Bracket

/-- In brackets an expression comes to its value rounded down, and to nothing when it has none. -/
theorem bracketValue?_text {e : Arithmetic Leaf (.chain .sum)}
    (valued : ∀ path, .name path ∈ e.leaves → c.valueOf? path.text = some (.int (values path.text)))
    (finite : ∀ path, .name path ∈ e.leaves → (Binary64.ofInt (values path.text)).isFinite)
    (fits : e.FitsWith values) :
    c.bracketValue? (e.text Leaf.text) =
      (e.valueIn values).toOption.bind fun x => x.floor?.map integerText := by
  have unwrapped : c.wrapperValue? (e.text Leaf.text) = none := by rw [wrapperValue?, wrapped?_text]; rfl
  have value := evaluate_text (fits.fits finite)
  rw [tree_substituted, value_tree finite] at value
  simp only [bracketValue?, withoutBlanks_text, unwrapped, Option.none_or, substitutePaths_text valued,
    isPureArithmetic_text, if_true, value]

/-- Substitution is faithful: the text with values for names is read as the tree of the expression with values for
its names, and in brackets the expression comes to its value rounded down. -/
theorem substitutePaths_faithful (c : Character) (e : Arithmetic Leaf (.chain .sum)) (values : List Char → Int)
    (valued : ∀ path, .name path ∈ e.leaves →
      c.valueOf? path.text = some (.int (values path.text)) ∧ (values path.text).natAbs ≤ power 2 53)
    (fits : e.FitsWith values) :
    (∃ tokens, tokenize (c.substitutePaths (e.text Leaf.text)) = .ok tokens ∧
      parse tokens = .ok (e.tree (Leaf.tree values))) ∧
      (∀ x, e.valueIn values = .ok x →
        ∃ n, x.floor? = some n ∧ c.bracketValue? (e.text Leaf.text) = some (integerText n)) ∧
      ∀ fault, e.valueIn values = .error fault → c.bracketValue? (e.text Leaf.text) = none := by
  have known := fun path member => (valued path member).1
  have finite := fun path member => Binary64.isFinite_ofInt (valued path member).2
  refine ⟨?_, ?_, ?_⟩
  · obtain ⟨tokens, read, _, parsed⟩ := parse_text (fits.fits finite)
    rw [← substitutePaths_text known] at read
    rw [tree_substituted] at parsed
    exact ⟨tokens, read, parsed⟩
  · intro x value
    rw [bracketValue?_text known finite fits, value]
    have number := isFinite_of_value value
    cases x with
    | finite negative size => exact ⟨_, rfl, rfl⟩
    | infinite | nan => cases number
  · intro fault failed
    rw [bracketValue?_text known finite fits, failed]
    rfl

/-- A character with a variable whose name is the end of the name of another one. -/
def overlapping : Character :=
  { plain with bag := [("ab", .number (.ofInt (-2))), ("b", .number (.ofInt 3))] }

/-- The expression `ab*b-b`. -/
def overlappingNames : Arithmetic Leaf (.chain .sum) :=
  .binary .sub rfl
    (.alone (.binary .mul rfl (.alone (.leaf (.name ⟨['a', 'b'], by decide⟩))) (.leaf (.name ⟨['b'], by decide⟩))))
    (.alone (.leaf (.name ⟨['b'], by decide⟩)))

/-- Neither the end of the longer name nor the sign of its value is taken for anything else. -/
theorem substitutePaths_faithful_overlapping :
    let values := fun name : List Char => if name = ['a', 'b'] then (-2 : Int) else 3
    (∀ path, .name path ∈ overlappingNames.leaves →
      overlapping.valueOf? path.text = some (.int (values path.text)) ∧ (values path.text).natAbs ≤ power 2 53) ∧
      overlappingNames.FitsWith values ∧
      overlapping.substitutePaths "ab*b-b".toList = "-2*3-3".toList ∧
      overlapping.bracketValue? "ab*b-b".toList = some "-9".toList := by
  intro values
  have valued : ∀ path, .name path ∈ overlappingNames.leaves →
      overlapping.valueOf? path.text = some (.int (values path.text)) ∧
        (values path.text).natAbs ≤ power 2 53 := by
    intro path member
    have cases : path.text = ['a', 'b'] ∨ path.text = ['b'] := by
      simp only [overlappingNames, leaves, List.cons_append, List.nil_append, List.mem_cons, Leaf.name.injEq,
        List.not_mem_nil, or_false] at member
      rcases member with rfl | rfl | rfl <;> simp
    rcases cases with same | same
    · rw [same]
      exact ⟨by decide +kernel, by decide +kernel⟩
    · rw [same]
      exact ⟨by decide +kernel, by decide +kernel⟩
  have fits : overlappingNames.FitsWith values := by
    refine ⟨by decide +kernel, by decide +kernel, ?_⟩
    intro numeral member
    simp [overlappingNames, leaves] at member
  obtain ⟨_, rounded, _⟩ := substitutePaths_faithful overlapping overlappingNames values valued fits
  have spliced := substitutePaths_text fun path member => (valued path member).1
  have written : (overlappingNames.substituted values).text Numeral.text = "-2*3-3".toList := by decide +kernel
  have value : (overlappingNames.valueIn values).toOption.bind Binary64.floor? = some (-9) := by decide +kernel
  cases own : overlappingNames.valueIn values with
  | error fault =>
    rw [own] at value
    cases value
  | ok x =>
    rw [own] at value
    obtain ⟨n, floor, bracket⟩ := rounded x own
    obtain rfl := Option.some.inj (floor.symm.trans value)
    exact ⟨valued, fits, spliced.trans written, bracket⟩

end Bracket

end Character

end HeroSheet
