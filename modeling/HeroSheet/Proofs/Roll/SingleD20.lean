import HeroSheet.Proofs.Text.Search
import HeroSheet.Roll.Advantage

/-!
Single dice of twenty sides. Two readings of a formula, first for those with a count and then for those without,
replace the same dice as one reading for both; and they replace some exactly when the formula has one.
-/

namespace HeroSheet

namespace Formula

open Text

/-- The die stands somewhere in the formula with no digit before or behind it. -/
def HasStandalone (die cs : List Char) : Prop :=
  ∃ front back, cs = front ++ (die ++ back) ∧ noDigit front.getLast? ∧ noDigit back.head?

/-- The formula has a single d20, written `1d20` or `d20`. -/
def HasD20 (cs : List Char) : Prop := HasStandalone ['1', 'd', '2', '0'] cs ∨ HasStandalone ['d', '2', '0'] cs

/-- Recognises a single d20, written either way. -/
def singleD20 : Recogniser Unit := fun before cs => (countedD20 before cs).or (bareD20 before cs)

/-- The formula with other dice for every single d20. -/
def withDice (dice cs : List Char) : List Char := replacePhrases singleD20 (fun _ => dice) cs

section Standalone

variable {die cs : List Char} {before : Option Char}

theorem standalone_eq_some_iff {found : Unit × Nat} :
    standalone die before cs = some found ↔
      found = ((), die.length) ∧ noDigit before ∧ ∃ back, cs = die ++ back ∧ noDigit back.head? := by
  unfold standalone
  constructor
  · intro stands
    split at stands
    · rename_i here
      simp only [Bool.and_eq_true] at here
      obtain ⟨⟨apart, starts⟩, ends⟩ := here
      obtain ⟨back, rfl⟩ := List.isPrefixOf_iff_prefix.mp starts
      rw [List.drop_left] at ends
      exact ⟨(Option.some.inj stands).symm, apart, back, rfl, ends⟩
    · cases stands
  · rintro ⟨rfl, apart, back, rfl, ends⟩
    have starts : die.isPrefixOf (die ++ back) = true :=
      List.isPrefixOf_iff_prefix.mpr (List.prefix_append die back)
    rw [List.drop_left, apart, starts, ends]
    rfl

/-- Behind a digit nothing is found. -/
theorem standalone_of_digit (digit : noDigit before = false) : standalone die before cs = none := by
  unfold standalone
  rw [digit]
  rfl

private theorem phrases_ne_nil_of_standalone {front back : List Char} (present : die ≠ [])
    (apart : noDigit (front.getLast?.or before)) (ends : noDigit back.head?) :
    phrases (piecesFrom (standalone die) before 0 (front ++ (die ++ back))) ≠ [] := by
  induction front generalizing before with
  | nil =>
    have found : standalone die before (die ++ back) = some ((), die.length) :=
      standalone_eq_some_iff.mpr ⟨rfl, apart, back, rfl, ends⟩
    obtain ⟨c, die, rfl⟩ := List.exists_cons_of_ne_nil present
    rw [List.cons_append] at found
    rw [List.nil_append, List.cons_append, piecesFrom, found]
    exact List.cons_ne_nil _ _
  | cons c front ih =>
    rw [getLast?_cons_or] at apart
    rw [List.cons_append, piecesFrom]
    cases standalone die before (c :: (front ++ (die ++ back))) with
    | none => exact ih apart
    | some found => exact List.cons_ne_nil _ _

private theorem standalone_of_phrases_ne_nil {covered : Nat}
    (some : phrases (piecesFrom (standalone die) before covered cs) ≠ []) :
    ∃ front back, cs = front ++ (die ++ back) ∧ noDigit (front.getLast?.or before) ∧ noDigit back.head? := by
  fun_induction piecesFrom (standalone die) before covered cs with
  | case1 before covered => exact absurd rfl some
  | case2 before covered c cs ih =>
    obtain ⟨front, back, rfl, apart, ends⟩ := ih some
    exact ⟨c :: front, back, rfl, by rwa [getLast?_cons_or], ends⟩
  | case3 before c cs phrase width found ih =>
    obtain ⟨_, apart, back, eq, ends⟩ := standalone_eq_some_iff.mp found
    exact ⟨[], back, eq, apart, ends⟩
  | case4 before c cs none ih =>
    obtain ⟨front, back, rfl, apart, ends⟩ := ih some
    exact ⟨c :: front, back, rfl, by rwa [getLast?_cons_or], ends⟩

/-- A die is found exactly when it stands somewhere by itself. -/
theorem phrases_standalone_eq_nil_iff (present : die ≠ []) :
    phrases (pieces (standalone die) cs) = [] ↔ ¬ HasStandalone die cs := by
  constructor
  · rintro none ⟨front, back, rfl, apart, ends⟩
    have apart : noDigit (front.getLast?.or Option.none) := by rwa [Option.or_none]
    exact phrases_ne_nil_of_standalone present apart ends none
  · intro absent
    by_contra found
    obtain ⟨front, back, eq, apart, ends⟩ := standalone_of_phrases_ne_nil found
    rw [Option.or_none] at apart
    exact absent ⟨front, back, eq, apart, ends⟩

end Standalone

section Readings

variable {recognise : Recogniser Unit} {dice cs back : List Char} {before own : Option Char}

/-- The text from a place on, with dice for what is recognised. -/
def replacedFrom (recognise : Recogniser Unit) (dice : List Char) (before : Option Char) (cs : List Char) :
    List Char :=
  assemble (fun _ => dice) (piecesFrom recognise before 0 cs)

theorem replacedFrom_nil : replacedFrom recognise dice before [] = [] := by
  rw [replacedFrom, piecesFrom]
  rfl

theorem replacedFrom_of_none {c : Char} (none : recognise before (c :: cs) = none) :
    replacedFrom recognise dice before (c :: cs) = c :: replacedFrom recognise dice (some c) cs := by
  rw [replacedFrom, piecesFrom, none]
  rfl

theorem replacedFrom_of_found {source : List Char} (present : source ≠ [])
    (found : recognise before (source ++ back) = some ((), source.length)) :
    replacedFrom recognise dice before (source ++ back) =
      dice ++ replacedFrom recognise dice source.getLast? back := by
  rw [replacedFrom, piecesFrom_of_found present found]
  rfl

/-- A part of a text in which nothing is found stays as it is. -/
theorem replacedFrom_append_of_none {part : List Char}
    (unseen : ∀ front c rest, part = front ++ c :: rest →
      recognise (front.getLast?.or before) (c :: (rest ++ back)) = none) :
    replacedFrom recognise dice before (part ++ back) =
      part ++ replacedFrom recognise dice (part.getLast?.or before) back := by
  induction part generalizing before with
  | nil => rfl
  | cons c part ih =>
    have later : ∀ front d rest, part = front ++ d :: rest →
        recognise (front.getLast?.or (some c)) (d :: (rest ++ back)) = none := by
      rintro front d rest rfl
      rw [← getLast?_cons_or c front before]
      exact unseen (c :: front) d rest rfl
    have here : recognise before (c :: (part ++ back)) = none := unseen [] c part rfl
    rw [List.cons_append, replacedFrom_of_none here, ih later, List.cons_append, getLast?_cons_or]

theorem replacedFrom_of_digit {die : List Char} {c : Char} (digit : noDigit before = false) :
    replacedFrom (standalone die) dice before (c :: cs) = c :: replacedFrom (standalone die) dice (some c) cs :=
  replacedFrom_of_none (standalone_of_digit digit)

theorem head?_replacedFrom {die : List Char} (digit : noDigit before = false) :
    (replacedFrom (standalone die) dice before cs).head? = cs.head? := by
  cases cs with
  | nil => rw [replacedFrom_nil]
  | cons c cs => rw [replacedFrom_of_digit digit, List.head?_cons, List.head?_cons]

theorem replacedFrom_twenty (back : List Char) :
    replacedFrom countedD20 dice (some 'd') ('2' :: '0' :: back) =
      '2' :: '0' :: replacedFrom countedD20 dice (some '0') back := by
  have uncounted : countedD20 (some 'd') ('2' :: '0' :: back) = none := rfl
  rw [replacedFrom_of_none uncounted, countedD20, replacedFrom_of_digit (by decide)]

section Rewritten

variable {state : Advantage} (rewritten : state.dice = some dice)
include rewritten

theorem dice_eq : dice = ['2', 'd', '2', '0', 'k', 'h', '1'] ∨ dice = ['2', 'd', '2', '0', 'k', 'l', '1'] := by
  cases state with
  | normal => cases rewritten
  | advantage => exact Or.inl (Option.some.inj rewritten).symm
  | disadvantage => exact Or.inr (Option.some.inj rewritten).symm

private theorem replacedFrom_dice (own : Option Char) (cs : List Char) :
    replacedFrom bareD20 dice own (dice ++ cs) = dice ++ replacedFrom bareD20 dice (some '1') cs := by
  have other : ∀ (before : Option Char) (c : Char) (rest : List Char), c ≠ 'd' →
      bareD20 before (c :: rest) = none := by
    intro before c rest different
    simp [bareD20, standalone, List.isPrefixOf, Ne.symm different]
  have behind : ∀ rest, bareD20 (some '2') ('d' :: rest) = none := fun rest => standalone_of_digit (by decide)
  rcases dice_eq rewritten with rfl | rfl
  · simp only [List.cons_append, List.nil_append]
    rw [replacedFrom_of_none (other _ _ _ (by decide)), replacedFrom_of_none (behind _),
      replacedFrom_of_none (other _ _ _ (by decide)), replacedFrom_of_none (other _ _ _ (by decide)),
      replacedFrom_of_none (other _ _ _ (by decide)), replacedFrom_of_none (other _ _ _ (by decide)),
      replacedFrom_of_none (other _ _ _ (by decide))]
  · simp only [List.cons_append, List.nil_append]
    rw [replacedFrom_of_none (other _ _ _ (by decide)), replacedFrom_of_none (behind _),
      replacedFrom_of_none (other _ _ _ (by decide)), replacedFrom_of_none (other _ _ _ (by decide)),
      replacedFrom_of_none (other _ _ _ (by decide)), replacedFrom_of_none (other _ _ _ (by decide)),
      replacedFrom_of_none (other _ _ _ (by decide))]

/-- The reading for dice with a count leaves and makes no twenty behind a `d`. -/
theorem replacedFrom_twenty_iff :
    (∃ back, replacedFrom countedD20 dice (some 'd') cs = '2' :: '0' :: back ∧ noDigit back.head?) ↔
      ∃ back, cs = '2' :: '0' :: back ∧ noDigit back.head? := by
  constructor
  · rintro ⟨back, eq, ends⟩
    cases cs with
    | nil =>
      rw [replacedFrom_nil] at eq
      cases eq
    | cons c cs =>
      cases found : countedD20 (some 'd') (c :: cs) with
      | some read =>
        obtain ⟨rfl, _, rest, same, _⟩ := standalone_eq_some_iff.mp found
        rw [same] at found eq
        rw [replacedFrom_of_found (List.cons_ne_nil _ _) found] at eq
        rcases dice_eq rewritten with rfl | rfl <;> cases eq
      | none =>
        rw [replacedFrom_of_none found] at eq
        obtain ⟨rfl, eq⟩ := List.cons.inj eq
        cases cs with
        | nil =>
          rw [replacedFrom_nil] at eq
          cases eq
        | cons d cs =>
          rw [countedD20, replacedFrom_of_digit (by decide)] at eq
          obtain ⟨rfl, rfl⟩ := List.cons.inj eq
          rw [head?_replacedFrom (by decide)] at ends
          exact ⟨cs, rfl, ends⟩
  · rintro ⟨back, rfl, ends⟩
    refine ⟨replacedFrom countedD20 dice (some '0') back, replacedFrom_twenty back, ?_⟩
    rwa [countedD20, head?_replacedFrom (by decide)]

/-- A die without a count is found in the second reading where it is found in the formula. -/
theorem bareD20_replacedFrom (same : noDigit own = noDigit before) (c : Char) :
    bareD20 own (c :: replacedFrom countedD20 dice (some c) cs) = bareD20 before (c :: cs) := by
  apply Option.ext
  intro found
  rw [bareD20, standalone_eq_some_iff, standalone_eq_some_iff, same]
  by_cases die : c = 'd'
  · subst die
    simp only [List.cons_append, List.nil_append, List.cons.injEq, true_and]
    rw [replacedFrom_twenty_iff rewritten]
  · simp [die]

/-- A die without a count is left by the first reading and replaced by the second. -/
theorem replacedFrom_of_bare {back : List Char} (same : noDigit own = noDigit before)
    (counted : countedD20 before ('d' :: '2' :: '0' :: back) = none)
    (bare : bareD20 before ('d' :: '2' :: '0' :: back) = some ((), 3)) :
    replacedFrom bareD20 dice own (replacedFrom countedD20 dice before ('d' :: '2' :: '0' :: back)) =
      dice ++ replacedFrom bareD20 dice (some '0') (replacedFrom countedD20 dice (some '0') back) := by
  have second : bareD20 own ('d' :: replacedFrom countedD20 dice (some 'd') ('2' :: '0' :: back)) =
      bareD20 before ('d' :: '2' :: '0' :: back) := bareD20_replacedFrom rewritten same 'd'
  rw [replacedFrom_twenty, bare] at second
  rw [replacedFrom_of_none counted, replacedFrom_twenty]
  exact replacedFrom_of_found (List.cons_ne_nil 'd' ['2', '0']) second

/-- Both readings together are one. -/
theorem replacedFrom_replacedFrom (same : noDigit own = noDigit before) :
    replacedFrom bareD20 dice own (replacedFrom countedD20 dice before cs) =
      replacedFrom singleD20 dice before cs := by
  induction size : cs.length using Nat.strongRecOn generalizing own before cs with
  | ind size ih =>
    subst size
    cases cs with
    | nil => rw [replacedFrom_nil, replacedFrom_nil, replacedFrom_nil]
    | cons c cs =>
      cases counted : countedD20 before (c :: cs) with
      | some read =>
        obtain ⟨rfl, _, back, eq, _⟩ := standalone_eq_some_iff.mp counted
        have single : singleD20 before (c :: cs) = some ((), 4) := by rw [singleD20, counted]; rfl
        rw [eq] at counted single ⊢
        have shorter : back.length < (c :: cs).length := by
          rw [eq, List.length_append]
          simp only [List.length_cons, List.length_nil]
          omega
        rw [replacedFrom_of_found (List.cons_ne_nil _ _) counted, replacedFrom_dice rewritten,
          replacedFrom_of_found (List.cons_ne_nil _ _) single]
        exact congrArg (dice ++ ·) (ih _ shorter (by decide) rfl)
      | none =>
        have single : singleD20 before (c :: cs) = bareD20 before (c :: cs) := by rw [singleD20, counted]; rfl
        cases bare : bareD20 before (c :: cs) with
        | some read =>
          obtain ⟨rfl, _, back, eq, _⟩ := standalone_eq_some_iff.mp bare
          rw [bare] at single
          rw [List.cons_append] at eq
          obtain ⟨rfl, rfl⟩ := List.cons.inj eq
          have shorter : back.length < ('d' :: '2' :: '0' :: back).length := by
            simp only [List.length_cons]
            omega
          have once : replacedFrom singleD20 dice before ('d' :: '2' :: '0' :: back) =
              dice ++ replacedFrom singleD20 dice (some '0') back :=
            replacedFrom_of_found (List.cons_ne_nil 'd' ['2', '0']) single
          refine (replacedFrom_of_bare rewritten same counted bare).trans (Eq.trans ?_ once.symm)
          exact congrArg (dice ++ ·) (ih _ shorter rfl rfl)
        | none =>
          have second : bareD20 own (c :: replacedFrom countedD20 dice (some c) cs) = none :=
            (bareD20_replacedFrom rewritten same c).trans bare
          rw [bare] at single
          rw [replacedFrom_of_none counted, replacedFrom_of_none second, replacedFrom_of_none single]
          exact congrArg (c :: ·) (ih cs.length (Nat.lt_succ_self _) rfl rfl)

end Rewritten

theorem assemble_of_phrases_eq_nil {write : Unit → List Char} {covered : Nat}
    (none : phrases (piecesFrom recognise before covered cs) = []) :
    assemble write (piecesFrom recognise before covered cs) = cs.drop covered := by
  fun_induction piecesFrom recognise before covered cs with
  | case1 before covered => rw [List.drop_nil]; rfl
  | case2 before covered c cs ih => rw [List.drop_succ_cons]; exact ih none
  | case3 before c cs phrase width found ih => cases none
  | case4 before c cs unseen ih => exact congrArg (c :: ·) (ih none)

end Readings

section Replaced

variable {state : Advantage} {dice cs : List Char} (rewritten : state.dice = some dice)

/-- Without a single d20 nothing is replaced. -/
theorem replaceD20?_of_not (absent : ¬ HasD20 cs) : replaceD20? dice cs = none := by
  obtain ⟨noCounted, noBare⟩ := not_or.mp absent
  have counted : phrases (pieces countedD20 cs) = [] :=
    (phrases_standalone_eq_nil_iff (List.cons_ne_nil _ _)).mpr noCounted
  have once : assemble (fun _ => dice) (pieces countedD20 cs) = cs := assemble_of_phrases_eq_nil counted
  have bare : phrases (pieces bareD20 cs) = [] :=
    (phrases_standalone_eq_nil_iff (List.cons_ne_nil _ _)).mpr noBare
  simp only [replaceD20?, once, counted, bare, List.isEmpty_nil, Bool.and_self, if_true]

include rewritten in
/-- With a single d20 all of them are replaced. -/
theorem replaceD20?_of_hasD20 (present : HasD20 cs) : replaceD20? dice cs = some (withDice dice cs) := by
  have both : assemble (fun _ => dice) (pieces bareD20 (assemble (fun _ => dice) (pieces countedD20 cs))) =
      withDice dice cs := replacedFrom_replacedFrom rewritten rfl
  have some : ((phrases (pieces countedD20 cs)).isEmpty &&
      (phrases (pieces bareD20 (assemble (fun _ => dice) (pieces countedD20 cs)))).isEmpty) = false := by
    rw [Bool.and_eq_false_iff, List.isEmpty_eq_false_iff, List.isEmpty_eq_false_iff]
    by_contra neither
    obtain ⟨counted, bare⟩ := not_or.mp neither
    rw [not_not] at counted bare
    have once : assemble (fun _ => dice) (pieces countedD20 cs) = cs := assemble_of_phrases_eq_nil counted
    rw [once] at bare
    rcases present with alone | alone
    · exact (phrases_standalone_eq_nil_iff (List.cons_ne_nil _ _)).mp counted alone
    · exact (phrases_standalone_eq_nil_iff (List.cons_ne_nil _ _)).mp bare alone
  simp only [replaceD20?, some, both, Bool.false_eq_true, if_false]

/-- Where a single d20 is found the formula has one. -/
theorem hasD20_of_found {front back : List Char} {c : Char} {found : Unit × Nat}
    (here : singleD20 front.getLast? (c :: back) = some found) : HasD20 (front ++ c :: back) := by
  rcases Option.or_eq_some_iff.mp here with counted | ⟨_, bare⟩
  · obtain ⟨_, apart, rest, eq, ends⟩ := standalone_eq_some_iff.mp counted
    exact Or.inl ⟨front, rest, by rw [eq], apart, ends⟩
  · obtain ⟨_, apart, rest, eq, ends⟩ := standalone_eq_some_iff.mp bare
    exact Or.inr ⟨front, rest, by rw [eq], apart, ends⟩

private theorem withDice_of_not_hasD20 (absent : ¬ HasD20 cs) : withDice dice cs = cs := by
  have unseen : ∀ front c rest, cs = front ++ c :: rest →
      singleD20 (front.getLast?.or none) (c :: (rest ++ [])) = none := by
    rintro front c rest rfl
    rw [Option.or_none, List.append_nil]
    by_contra found
    obtain ⟨read, here⟩ := Option.ne_none_iff_exists'.mp found
    exact absent (hasD20_of_found here)
  have whole : replacedFrom singleD20 dice none (cs ++ []) =
      cs ++ replacedFrom singleD20 dice (cs.getLast?.or none) [] := replacedFrom_append_of_none unseen
  rwa [replacedFrom_nil, List.append_nil] at whole

include rewritten in
/-- The advantage step writes other dice for every single d20, if there is one. -/
theorem replaceD20?_getD : (replaceD20? dice cs).getD cs = withDice dice cs := by
  by_cases present : HasD20 cs
  · rw [replaceD20?_of_hasD20 rewritten present, Option.getD_some]
  · rw [replaceD20?_of_not present, withDice_of_not_hasD20 present, Option.getD_none]

end Replaced

end Formula

/-- The formula of a roll after the advantage step. -/
theorem Session.applyAdvantage_formula {s : Session} {dice : List Char} (rewritten : s.advantage.dice = some dice)
    (formula : String) (notes : List String) :
    (s.applyAdvantage formula notes).formula = String.ofList (Formula.withDice dice formula.toList) := by
  rw [← Formula.replaceD20?_getD rewritten, applyAdvantage, rewritten, Option.bind_some]
  cases Formula.replaceD20? dice formula.toList with
  | none => rw [Option.getD_none, String.ofList_toList]
  | some replaced => rfl

end HeroSheet
