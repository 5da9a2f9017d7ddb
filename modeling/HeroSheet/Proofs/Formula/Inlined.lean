import HeroSheet.Proofs.Formula.Valued

/-!
Arithmetic behind references in parentheses. The pass for those references takes every group that is one plain name
for a reference and writes the value without the parentheses; the expression keeps its value and comes no nearer to
the limits of the evaluator.
-/

namespace HeroSheet

namespace Formula

open Character Text

/-- The name, when the leaf is one without points. -/
def Leaf.plainName? : Leaf → Option PathName
  | .numeral _ => none
  | .name path => if path.text.all isNameChar then some path else none

private theorem Leaf.plainName?_eq_some {path : PathName} {leaf : Leaf} (plain : leaf.plainName? = some path) :
    leaf = .name path ∧ ∀ d ∈ path.text, isNameChar d := by
  cases leaf with
  | numeral n => cases plain
  | name own =>
    change (if own.text.all isNameChar then some own else none) = some path at plain
    split at plain
    · rename_i chars
      obtain rfl := Option.some.inj plain
      exact ⟨rfl, List.all_eq_true.mp chars⟩
    · cases plain

namespace Arithmetic

variable {rank : Rank} {values : List Char → Int}

/-- The name that the whole expression is, when it is one without points. -/
def plainName? {rank : Rank} : Arithmetic Leaf rank → Option PathName
  | .leaf a => a.plainName?
  | .minus _ => none
  | .group _ => none
  | .alone only => only.plainName?
  | .binary _ _ _ _ => none

/-- An integer as a factor of a formula. -/
def written (n : Int) : Arithmetic Leaf .factor := (ofInt n).bind fun numeral => .leaf (.numeral numeral)

/-- The expression with values for the groups that are one plain name. -/
def inlined (values : List Char → Int) {rank : Rank} : Arithmetic Leaf rank → Arithmetic Leaf rank
  | .leaf a => .leaf a
  | .minus operand => .minus (operand.inlined values)
  | .group inner =>
    match inner.plainName? with
    | some path => written (values path.text)
    | none => .group (inner.inlined values)
  | .alone only => .alone (only.inlined values)
  | .binary op own left right => .binary op own (left.inlined values) (right.inlined values)

theorem text_written (n : Int) : (written n).text Leaf.text = integerText n := by
  rw [written, text_bind]
  exact text_ofInt n

private theorem substituted_written (n : Int) : (written n).substituted values = ofInt n := by
  unfold written ofInt
  split <;> rfl

section PlainName

variable {path : PathName}

/-- An expression that is one plain name is that name in all respects. -/
theorem of_plainName? (values : List Char → Int) {e : Arithmetic Leaf rank} (plain : e.plainName? = some path) :
    e.text Leaf.text = path.text ∧ (∀ d ∈ path.text, isNameChar d) ∧ .name path ∈ e.leaves ∧
      (∀ leafTree : Leaf → Expr, e.tree leafTree = leafTree (.name path)) ∧
      (e.substituted values).size = (ofInt (values path.text)).size ∧
      (e.substituted values).nesting = (ofInt (values path.text)).nesting := by
  induction e with
  | leaf leaf =>
    have own : leaf.plainName? = some path := plain
    obtain ⟨rfl, chars⟩ := Leaf.plainName?_eq_some own
    exact ⟨rfl, chars, List.mem_cons_self, fun _ => rfl, rfl, rfl⟩
  | alone only ih => exact ih plain
  | minus | group | binary => cases plain

private theorem exists_plainName {e : Arithmetic Leaf rank} (chars : ∀ d ∈ e.text Leaf.text, isNameChar d)
    (starts : ∀ d ∈ (e.text Leaf.text).head?, isNameStart d) : ∃ path, e.plainName? = some path := by
  induction e with
  | leaf leaf =>
    cases leaf with
    | numeral n =>
      obtain ⟨d, rest, written⟩ := List.exists_cons_of_ne_nil n.present
      have unnamed := isNameStart_of_numeral n d (written ▸ List.mem_cons_self)
      have named := starts d (congrArg List.head? written)
      rw [unnamed] at named
      cases named
    | name path =>
      have whole : path.text.all isNameChar := List.all_eq_true.mpr chars
      exact ⟨path, if_pos whole⟩
  | minus operand ih => exact absurd (chars '-' List.mem_cons_self) (by decide)
  | group inner ih => exact absurd (chars '(' List.mem_cons_self) (by decide)
  | alone only ih => exact ih chars starts
  | binary op own left right first second =>
    have char := chars op.symbol (List.mem_append_right _ List.mem_cons_self)
    cases op <;> cases char

end PlainName

end Arithmetic

section Closed

variable {cs rest : List Char} {opening closing : Char}

theorem closes_of_not_mem (absent : opening ∉ cs) : Closes opening closing cs :=
  fun _ suffix => absurd (suffix.subset List.mem_cons_self) absent

theorem closes_append (first : Closes opening closing cs) (second : Closes opening closing rest) :
    Closes opening closing (cs ++ rest) := by
  rintro behind ⟨front, eq⟩
  rcases List.append_eq_append_iff.mp eq with ⟨more, rfl, same⟩ | ⟨more, rfl, same⟩
  · cases more with
    | nil => exact second behind ⟨[], same⟩
    | cons d more =>
      obtain ⟨rfl, rfl⟩ := List.cons.inj same
      exact List.mem_append_left rest (first more (List.suffix_append front _))
  · exact second behind ⟨more, same.symm⟩

private theorem closes_text {rank : Rank} (e : Arithmetic Leaf rank) : Closes '(' ')' (e.text Leaf.text) := by
  have single : ∀ {d : Char} {cs : List Char}, d ≠ '(' → Closes '(' ')' cs → Closes '(' ')' (d :: cs) :=
    fun other closes =>
      closes_append (closes_of_not_mem fun member => other (List.mem_singleton.mp member).symm) closes
  induction e with
  | leaf leaf => exact closes_of_not_mem (not_mem_leaf leaf '(' (by decide))
  | minus operand ih => exact single (by decide) ih
  | group inner ih =>
    intro behind suffix
    rcases List.suffix_cons_iff.mp suffix with whole | inside
    · obtain ⟨_, rfl⟩ := List.cons.inj whole
      exact List.mem_append_right _ List.mem_cons_self
    · exact closes_append ih (closes_of_not_mem (by decide)) behind inside
  | alone only ih => exact ih
  | binary op own left right first second =>
    have other : op.symbol ≠ '(' := by cases op <;> decide
    exact closes_append first (single other second)

theorem partedBy_parenReference_of_closes (closes : Closes '(' ')' cs) {c : Char} (apart : c ≠ '(') :
    PartedBy parenReference cs c := by
  intro s suffix rest
  by_cases opens : s.head? = some '('
  · obtain ⟨behind, rfl⟩ := List.head?_eq_some_iff.mp opens
    obtain ⟨front, back, rfl⟩ := List.append_of_mem (closes behind suffix)
    cases front with
    | nil => rfl
    | cons d front =>
      have name : ∀ last, (front ++ ')' :: last).takeWhile isNameChar = front.takeWhile isNameChar := by
        intro last
        exact takeWhile_append_of_ends fun _ e here => by
          obtain rfl := Option.some.inj here
          rfl
      have ended : ∀ last, ((front ++ ')' :: last).dropWhile isNameChar).head? =
          ((front.dropWhile isNameChar).head?).or (some ')') := by
        intro last
        rw [List.dropWhile_append]
        split
        · rename_i all
          rw [List.isEmpty_iff.mp all]
          rfl
        · rename_i some
          cases left : front.dropWhile isNameChar with
          | nil => exact absurd (by rw [left]; rfl) some
          | cons e left => rfl
      simp only [parenReference, List.cons_append, List.append_assoc, name, ended]
  · have other : (s ++ c :: rest).head? ≠ some '(' := by
      cases s with
      | nil => exact fun same => apart (Option.some.inj same)
      | cons d s => exact opens
    rw [parenReference_eq_none _ other, parenReference_eq_none _ opens]

end Closed

namespace Arithmetic

variable {rank : Rank} {values : List Char → Int}

section Values

variable {e : Arithmetic Leaf rank}
  (finite : ∀ path, .name path ∈ e.leaves → (Binary64.ofInt (values path.text)).isFinite)

private theorem value_written {n : Int} (finite : (Binary64.ofInt n).isFinite) :
    ((written n).tree (Leaf.number values)).value = .ok (.ofInt n) := by
  have tree : (written n).tree (Leaf.number values) = (ofInt n).tree Numeral.tree := tree_bind _ _ _
  rw [tree, tree_ofInt, value_integerTree finite]

include finite in
/-- Values in place of groups change no value. -/
theorem valueIn_inlined : (e.inlined values).valueIn values = e.valueIn values := by
  induction e with
  | leaf a => rfl
  | minus operand ih =>
    have same := ih finite
    simp only [valueIn, inlined, tree, Expr.value] at same ⊢
    rw [same]
  | group inner ih =>
    cases plain : inner.plainName? with
    | none =>
      have same := ih finite
      simpa only [valueIn, inlined, plain, tree] using same
    | some path =>
      obtain ⟨_, _, member, tree, _⟩ := of_plainName? values plain
      have own := finite path member
      have number : (inner.tree (Leaf.number values)).value = .ok (.ofInt (values path.text)) := by
        rw [tree]
        exact value_number own
      simpa only [valueIn, inlined, plain, Arithmetic.tree, number] using value_written own
  | alone only ih => exact ih finite
  | binary op own left right first second =>
    exact value_binary_congr op (first fun path member => finite path (List.mem_append_left _ member))
      (second fun path member => finite path (List.mem_append_right _ member))

/-- The names that are left are names of the expression. -/
theorem name_mem_leaves_inlined {path : PathName} (member : .name path ∈ (e.inlined values).leaves) :
    .name path ∈ e.leaves := by
  induction e with
  | leaf a => exact member
  | minus operand ih => exact ih member
  | group inner ih =>
    unfold inlined at member
    split at member
    · obtain ⟨numeral, _, here⟩ := mem_leaves_bind.mp member
      cases List.mem_singleton.mp here
    · exact ih member
  | alone only ih => exact ih member
  | binary op own left right first second =>
    exact List.mem_append.mpr ((List.mem_append.mp member).imp first second)

private theorem isFinite_of_mem_inlined
    (finite : ∀ path, .name path ∈ e.leaves → (Binary64.ofInt (values path.text)).isFinite)
    (numerals : ∀ numeral, .numeral numeral ∈ e.leaves → numeral.value.isFinite) {numeral : Numeral}
    (member : .numeral numeral ∈ (e.inlined values).leaves) : numeral.value.isFinite := by
  induction e with
  | leaf a => exact numerals numeral member
  | minus operand ih => exact ih finite numerals member
  | group inner ih =>
    unfold inlined at member
    split at member
    · rename_i path plain
      obtain ⟨_, _, named, _⟩ := of_plainName? values plain
      obtain ⟨own, inner, here⟩ := mem_leaves_bind.mp member
      obtain rfl := Leaf.numeral.inj (List.mem_singleton.mp here)
      exact isFinite_of_mem_ofInt (finite path named) numeral inner
    · exact ih finite numerals member
  | alone only ih => exact ih finite numerals member
  | binary op own left right first second =>
    rcases List.mem_append.mp member with before | behind
    · exact first (fun path member => finite path (List.mem_append_left _ member))
        (fun own member => numerals own (List.mem_append_left _ member)) before
    · exact second (fun path member => finite path (List.mem_append_right _ member))
        (fun own member => numerals own (List.mem_append_right _ member)) behind

/-- Values in place of groups take tokens and nesting away. -/
theorem limits_inlined_le (e : Arithmetic Leaf rank) :
    ((e.inlined values).substituted values).size ≤ (e.substituted values).size ∧
      ((e.inlined values).substituted values).nesting ≤ (e.substituted values).nesting := by
  induction e with
  | leaf a => exact ⟨Nat.le_refl _, Nat.le_refl _⟩
  | minus operand ih => exact ⟨Nat.succ_le_succ ih.1, Nat.succ_le_succ ih.2⟩
  | group inner ih =>
    cases plain : inner.plainName? with
    | none =>
      simp only [inlined, plain]
      exact ⟨Nat.add_le_add_right ih.1 2, Nat.succ_le_succ ih.2⟩
    | some path =>
      obtain ⟨_, _, _, _, size, nesting⟩ := of_plainName? values plain
      simp only [inlined, plain, substituted_written]
      rw [← size, ← nesting]
      exact ⟨Nat.le_add_right _ 2, Nat.le_succ _⟩
  | alone only ih => exact ih
  | binary op own left right first second =>
    exact ⟨Nat.succ_le_succ (Nat.add_le_add first.1 second.1), by
      have room := second.2
      have space := first.2
      simp only [inlined, substituted, bind, nesting] at *
      omega⟩

theorem FitsWith.inlined (fits : e.FitsWith values)
    (finite : ∀ path, .name path ∈ e.leaves → (Binary64.ofInt (values path.text)).isFinite) :
    (e.inlined values).FitsWith values where
  size := Nat.le_trans (limits_inlined_le e).1 fits.size
  nesting := Nat.le_trans (limits_inlined_le e).2 fits.nesting
  numerals _ member := isFinite_of_mem_inlined finite fits.numerals member

end Values

end Arithmetic

section Reference

open Arithmetic

variable {rank : Rank}

/-- A plain name in parentheses is a reference. -/
theorem parenReference_of_plain {path : PathName} (chars : ∀ d ∈ path.text, isNameChar d) (rest : List Char) :
    parenReference none ('(' :: (path.text ++ ')' :: rest)) = some (path.text, path.text.length + 2) := by
  obtain ⟨d, more, written, starts⟩ := exists_of_isPath path.whole
  rw [written] at chars ⊢
  have inner : ∀ own ∈ more, isNameChar own := fun own member => chars own (List.mem_cons_of_mem d member)
  have name : (more ++ ')' :: rest).takeWhile isNameChar = more := by
    rw [List.takeWhile_append_of_pos inner, List.takeWhile_cons_of_neg (by decide), List.append_nil]
  have behind : (more ++ ')' :: rest).dropWhile isNameChar = ')' :: rest := by
    rw [List.dropWhile_append_of_pos inner, List.dropWhile_cons_of_neg (by decide)]
  simp only [List.cons_append, parenReference, starts, name, behind, List.head?_cons, if_true]

private theorem parenReference_of_not_plain {e : Arithmetic Leaf rank} (none : e.plainName? = none) (rest : List Char) :
    parenReference Option.none ('(' :: (e.text Leaf.text ++ ')' :: rest)) = Option.none := by
  cases found : parenReference Option.none ('(' :: (e.text Leaf.text ++ ')' :: rest)) with
  | none => rfl
  | some read =>
    obtain ⟨phrase, width⟩ := read
    obtain ⟨⟨last, eq⟩, _, chars, d, more, rfl, starts⟩ := spelled_of_parenReference found
    have closing : ')' ∉ d :: more := fun member => absurd (chars ')' member) (by decide)
    have other : e.text Leaf.text ≠ d :: more := by
      intro same
      have named : ∀ own ∈ (e.text Leaf.text).head?, isNameStart own := by
        rw [same]
        rintro own ⟨⟩
        exact starts
      obtain ⟨path, plain⟩ := exists_plainName (same ▸ chars) named
      rw [none] at plain
      cases plain
    -- the word ends at the first closing parenthesis, before or behind which the expression would end
    rcases List.append_eq_append_iff.mp (List.cons.inj eq).2 with ⟨after, word, behind⟩ | ⟨after, text, behind⟩
    · cases after with
      | nil => exact absurd (word.trans (List.append_nil _)).symm other
      | cons own after =>
        obtain ⟨rfl, _⟩ := List.cons.inj behind
        exact absurd (word ▸ List.mem_append_right _ List.mem_cons_self) closing
    · cases after with
      | nil => exact absurd (text.trans (List.append_nil _)) other
      | cons own after =>
        obtain ⟨rfl, _⟩ := List.cons.inj behind
        obtain ⟨nothing, _⟩ := eq_nil_of_text_eq (forall_of_all (by decide)) (Or.inr rfl) chars text
        cases nothing

end Reference

end Formula

namespace Character

open Formula Arithmetic Text

variable {c : Character} {rank : Rank} {values : List Char → Int} {e : Arithmetic Leaf rank}

theorem resolveParenReferences_cons {d : Char} (apart : d ≠ '(') (rest : List Char) :
    c.resolveParenReferences (d :: rest) = d :: c.resolveParenReferences rest :=
  finds_parenReference.replacePhrases_append
    (partedBy_parenReference_of_closes (closes_of_not_mem (List.not_mem_nil)) apart) rest

theorem resolveParenReferences_text_append {d : Char} (apart : d ≠ '(') (rest : List Char) :
    c.resolveParenReferences (e.text Leaf.text ++ d :: rest) =
      c.resolveParenReferences (e.text Leaf.text) ++ d :: c.resolveParenReferences rest :=
  finds_parenReference.replacePhrases_append (partedBy_parenReference_of_closes (closes_text e) apart) rest

/-- A group is written as its value when it is a plain name, and keeps its parentheses when it is not. -/
theorem resolveParenReferences_group {inner : Arithmetic Leaf (.chain .sum)} (rest : List Char)
    (bagged : ∀ path, .name path ∈ inner.leaves →
      c.bagValue? (String.ofList path.text) = some (.int (values path.text)))
    (inside : c.resolveParenReferences (inner.text Leaf.text) = (inner.inlined values).text Leaf.text) :
    c.resolveParenReferences ('(' :: (inner.text Leaf.text ++ ')' :: rest)) =
      ((group inner).inlined values).text Leaf.text ++ c.resolveParenReferences rest := by
  cases plain : inner.plainName? with
  | none =>
    have skipped := parenReference_of_not_plain plain rest
    have opening : c.resolveParenReferences ('(' :: (inner.text Leaf.text ++ ')' :: rest)) =
        '(' :: c.resolveParenReferences (inner.text Leaf.text ++ ')' :: rest) :=
      finds_parenReference.replacePhrases_of_none skipped
    rw [opening, resolveParenReferences_text_append (by decide), inside]
    simp only [inlined, plain, text, List.cons_append, List.append_assoc, List.nil_append]
  | some path =>
    obtain ⟨written, chars, member, _⟩ := of_plainName? values plain
    have value : c.bagNumber? path.text = some (.int (values path.text)) := by
      rw [bagNumber?, bagged path member]
      rfl
    have found := parenReference_of_plain chars rest
    have source : '(' :: (path.text ++ ')' :: rest) = ('(' :: path.text ++ [')']) ++ rest := by simp
    have width : ('(' :: path.text ++ [')']).length = path.text.length + 2 := by simp
    have present : '(' :: path.text ++ [')'] ≠ [] := by simp
    rw [source, ← width] at found
    rw [written, source, resolveParenReferences, finds_parenReference.replacePhrases_of_found present found]
    simp only [inlined, plain, text_written]
    change ((c.bagNumber? path.text).map (·.render)).getD _ ++ _ = _
    rw [value]
    rfl

/-- The pass for references in parentheses leaves the expression with values for its groups of one plain name. -/
theorem resolveParenReferences_text
    (bagged : ∀ path, .name path ∈ e.leaves → c.bagValue? (String.ofList path.text) = some (.int (values path.text))) :
    c.resolveParenReferences (e.text Leaf.text) = (e.inlined values).text Leaf.text := by
  induction e with
  | leaf a =>
    have absent := not_mem_leaf a '(' (by decide)
    exact finds_parenReference.replacePhrases_eq_self (findsNothing_of_not_mem parenReference_eq_none absent)
  | minus operand ih => exact (resolveParenReferences_cons (by decide) _).trans (congrArg ('-' :: ·) (ih bagged))
  | group inner ih =>
    exact (resolveParenReferences_group [] bagged (ih bagged)).trans (List.append_nil _)
  | alone only ih => exact ih bagged
  | binary op own left right first second =>
    obtain ⟨before, behind⟩ : (∀ path, .name path ∈ left.leaves → _) ∧ ∀ path, .name path ∈ right.leaves → _ :=
      ⟨fun path member => bagged path (List.mem_append_left _ member),
        fun path member => bagged path (List.mem_append_right _ member)⟩
    have apart : op.symbol ≠ '(' := by cases op <;> decide
    rw [text, resolveParenReferences_text_append apart, first before, second behind]
    rfl

end Character

end HeroSheet
