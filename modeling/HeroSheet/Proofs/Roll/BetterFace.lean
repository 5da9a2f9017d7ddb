import HeroSheet.Proofs.Dice.RolledSum
import HeroSheet.Proofs.Roll.SingleD20

namespace HeroSheet

open Dice Formula

variable {state : Advantage} {dice rest : List Char} {before : Option Char}

section Digits

theorem joint_other {c : Char} (joint : isJoint c) : isDecimal c = false ∧ c ≠ '1' ∧ c ≠ 'd' :=
  of_isJoint (p := fun c => isDecimal c = false ∧ c ≠ '1' ∧ c ≠ 'd') joint (by decide)

theorem noDigit_of_isDigit {c : Char} (digit : c.isDigit) : noDigit (some c) = false := by
  simp [noDigit, isDecimal, digitValue?_of_isDigit digit]

private theorem noDigit_of_endsOperand (ends : EndsOperand rest) : noDigit rest.head? := by
  cases rest with
  | nil => rfl
  | cons c rest => simp [noDigit, (joint_other (ends c rfl)).1]

theorem noDigit_of_isJoint {joint : List Char} (joints : ∀ c ∈ joint, isJoint c) (start : joint ≠ [] ∨ noDigit before) :
    noDigit (joint.getLast?.or before) := by
  cases last : joint.getLast? with
  | none =>
    have empty := List.getLast?_eq_none_iff.mp last
    simpa [empty] using start
  | some c =>
    have other := (joint_other (joints c (List.mem_of_getLast? last))).1
    simp [noDigit, other]

end Digits

section Rewritten

private theorem singleD20_of_other {c : Char} {cs : List Char} (one : c ≠ '1') (letter : c ≠ 'd') :
    singleD20 before (c :: cs) = none := by
  simp [singleD20, countedD20, bareD20, standalone, List.isPrefixOf, Ne.symm one, Ne.symm letter]

theorem singleD20_of_next {c : Char} {cs : List Char} (letter : c ≠ 'd') (next : ∀ d ∈ cs.head?, d ≠ 'd') :
    singleD20 before (c :: cs) = none := by
  cases cs with
  | nil => simp [singleD20, countedD20, bareD20, standalone, List.isPrefixOf]
  | cons d cs =>
    simp [singleD20, countedD20, bareD20, standalone, List.isPrefixOf, Ne.symm letter, Ne.symm (next d rfl)]

theorem singleD20_of_digit {c : Char} {cs : List Char} (digit : noDigit before = false) :
    singleD20 before (c :: cs) = none := by
  rw [singleD20, countedD20, bareD20, standalone_of_digit digit, standalone_of_digit digit]
  rfl

theorem replacedFrom_joint {joint : List Char} (joints : ∀ c ∈ joint, isJoint c) :
    replacedFrom singleD20 dice before (joint ++ rest) =
      joint ++ replacedFrom singleD20 dice (joint.getLast?.or before) rest := by
  refine replacedFrom_append_of_none ?_
  rintro front c back rfl
  obtain ⟨_, one, letter⟩ := joint_other (joints c (by simp))
  exact singleD20_of_other one letter

theorem ne_letter_of_isDigit {c : Char} (digit : c.isDigit) : c ≠ 'd' := by
  rintro rfl
  exact absurd digit (by decide)

theorem replacedFrom_digits {digits : List Char} (all : ∀ c ∈ digits, c.isDigit) (ends : EndsOperand rest) :
    replacedFrom singleD20 dice before (digits ++ rest) =
      digits ++ replacedFrom singleD20 dice (digits.getLast?.or before) rest := by
  refine replacedFrom_append_of_none ?_
  rintro front c back rfl
  refine singleD20_of_next (ne_letter_of_isDigit (all c (by simp))) ?_
  cases back with
  | nil => exact fun d first => (ends.apart first).2.1
  | cons d back =>
    rintro _ ⟨⟩
    exact ne_letter_of_isDigit (all d (by simp))

theorem eq_twenty {sides back : List Char} (present : sides ≠ []) (digits : ∀ c ∈ sides, c.isDigit)
    (ends : EndsOperand rest) (eq : sides ++ rest = '2' :: '0' :: back) (alone : noDigit back.head?) :
    sides = ['2', '0'] := by
  match sides with
  | [] => exact absurd rfl present
  | [c] =>
    obtain ⟨rfl, rfl⟩ := List.cons.inj eq
    exact absurd (ends.apart rfl).1 (by decide)
  | [c, d] =>
    obtain ⟨rfl, rest⟩ := List.cons.inj eq
    obtain ⟨rfl, _⟩ := List.cons.inj rest
    rfl
  | c :: d :: f :: sides =>
    obtain ⟨rfl, rest⟩ := List.cons.inj eq
    obtain ⟨rfl, rfl⟩ := List.cons.inj rest
    have digit := noDigit_of_isDigit (digits f (by simp))
    exact absurd alone (by simp [digit])

section Other

variable {count sides : List Char} (digits : ∀ c ∈ sides, c.isDigit) (present : sides ≠ []) (ends : EndsOperand rest)
include digits present ends

private theorem singleD20_of_letter (other : sides ≠ ['2', '0']) :
    singleD20 before ('d' :: (sides ++ rest)) = none := by
  by_contra found
  obtain ⟨read, here⟩ := Option.ne_none_iff_exists'.mp found
  rcases Option.or_eq_some_iff.mp here with counted | ⟨_, bare⟩
  · obtain ⟨_, _, back, eq, _⟩ := standalone_eq_some_iff.mp counted
    cases eq
  · obtain ⟨_, _, back, eq, alone⟩ := standalone_eq_some_iff.mp bare
    exact other (eq_twenty present digits ends (List.cons.inj eq).2 alone)

private theorem singleD20_of_count {c : Char} (letter : c ≠ 'd') (other : ¬ (c = '1' ∧ sides = ['2', '0'])) :
    singleD20 before (c :: 'd' :: (sides ++ rest)) = none := by
  by_contra found
  obtain ⟨read, here⟩ := Option.ne_none_iff_exists'.mp found
  rcases Option.or_eq_some_iff.mp here with counted | ⟨_, bare⟩
  · obtain ⟨_, _, back, eq, alone⟩ := standalone_eq_some_iff.mp counted
    obtain ⟨rfl, die⟩ := List.cons.inj eq
    exact other ⟨rfl, eq_twenty present digits ends (List.cons.inj die).2 alone⟩
  · obtain ⟨_, _, back, eq, _⟩ := standalone_eq_some_iff.mp bare
    exact letter (List.cons.inj eq).1

private theorem replacedFrom_count (counts : ∀ c ∈ count, c.isDigit)
    (other : ¬ ((count = [] ∨ count = ['1']) ∧ sides = ['2', '0'])) :
    replacedFrom singleD20 dice before (count ++ 'd' :: (sides ++ rest)) =
      count ++ replacedFrom singleD20 dice (count.getLast?.or before) ('d' :: (sides ++ rest)) := by
  refine replacedFrom_append_of_none fun front c back eq => ?_
  have letter := ne_letter_of_isDigit (counts c (by simp [eq]))
  cases last : front.getLast? with
  | some d =>
    have digit := counts d (by simp [eq, List.mem_of_getLast? last])
    exact singleD20_of_digit (noDigit_of_isDigit digit)
  | none =>
    obtain rfl := List.getLast?_eq_none_iff.mp last
    cases back with
    | nil =>
      refine singleD20_of_count digits present ends letter fun single => other ⟨Or.inr ?_, single.2⟩
      rw [eq, single.1, List.nil_append]
    | cons d back =>
      refine singleD20_of_next letter ?_
      rintro _ ⟨⟩
      exact ne_letter_of_isDigit (counts d (by simp [eq]))

private theorem replacedFrom_dice_text (counts : ∀ c ∈ count, c.isDigit)
    (other : ¬ ((count = [] ∨ count = ['1']) ∧ sides = ['2', '0'])) :
    replacedFrom singleD20 dice before (count ++ 'd' :: (sides ++ rest)) =
      count ++ 'd' :: (sides ++ replacedFrom singleD20 dice (sides.getLast?.or (some 'd')) rest) := by
  have die : singleD20 (count.getLast?.or before) ('d' :: (sides ++ rest)) = none := by
    cases last : count.getLast? with
    | some d => exact singleD20_of_digit (noDigit_of_isDigit (counts d (List.mem_of_getLast? last)))
    | none =>
      have empty := List.getLast?_eq_none_iff.mp last
      exact singleD20_of_letter digits present ends fun twenty => other ⟨Or.inl empty, twenty⟩
  rw [replacedFrom_count digits present ends counts other, replacedFrom_of_none die, replacedFrom_digits digits ends]

end Other

private theorem replacedFrom_d20 (counted : Bool) (start : noDigit before) (ends : EndsOperand rest) :
    replacedFrom singleD20 dice before ((if counted then ['1', 'd', '2', '0'] else ['d', '2', '0']) ++ rest) =
      dice ++ replacedFrom singleD20 dice (some '0') rest := by
  have alone := noDigit_of_endsOperand ends
  cases counted with
  | true =>
    have found : countedD20 before (['1', 'd', '2', '0'] ++ rest) = some ((), 4) :=
      standalone_eq_some_iff.mpr ⟨rfl, start, rest, rfl, alone⟩
    have single : singleD20 before (['1', 'd', '2', '0'] ++ rest) = some ((), 4) := by
      rw [singleD20, found]
      rfl
    exact replacedFrom_of_found (List.cons_ne_nil _ _) single
  | false =>
    have found : bareD20 before (['d', '2', '0'] ++ rest) = some ((), 3) :=
      standalone_eq_some_iff.mpr ⟨rfl, start, rest, rfl, alone⟩
    have uncounted : countedD20 before (['d', '2', '0'] ++ rest) = none := by
      simp [countedD20, standalone, List.isPrefixOf]
    have single : singleD20 before (['d', '2', '0'] ++ rest) = some ((), 3) := by
      rw [singleD20, uncounted, found]
      rfl
    exact replacedFrom_of_found (List.cons_ne_nil _ _) single

/-- Only a single d20 is written anew. -/
theorem replacedFrom_operand {operand : Operand} (rewritten : state.dice = some dice) (written : operand.Written)
    (start : noDigit before) (ends : EndsOperand rest) :
    ∃ own, replacedFrom singleD20 dice before (operand.text .normal ++ rest) =
      operand.text state ++ replacedFrom singleD20 dice own rest := by
  cases operand with
  | integer digits => exact ⟨_, replacedFrom_digits written.2 ends⟩
  | dice count sides =>
    obtain ⟨counts, ⟨present, digits⟩, other⟩ := written
    refine ⟨sides.getLast?.or (some 'd'), ?_⟩
    rw [Operand.text, Operand.text, List.append_assoc, List.cons_append,
      replacedFrom_dice_text digits present ends counts other, List.append_assoc, List.cons_append]
  | d20 counted =>
    refine ⟨some '0', ?_⟩
    rw [Operand.text, Operand.text, rewritten, Option.getD_some]
    exact replacedFrom_d20 counted start ends

private theorem isJoint_of_mem_signs {signs : List Sign} (written : ∀ sign ∈ signs, sign.Written) :
    ∀ c ∈ signs.flatMap Sign.text, isJoint c := by
  intro c member
  obtain ⟨sign, listed, own⟩ := List.mem_flatMap.mp member
  exact isJoint_of_mem_sign (written sign listed) own

variable (rewritten : state.dice = some dice)
include rewritten

theorem replacedFrom_addend {addend : Addend} (written : addend.Written) (start : noDigit before)
    (ends : EndsOperand rest) :
    ∃ own, replacedFrom singleD20 dice before (addend.text .normal ++ rest) =
      addend.text state ++ replacedFrom singleD20 dice own rest := by
  obtain ⟨signs, operand, blank⟩ := written
  have joint := isJoint_of_mem_signs signs
  obtain ⟨own, stays⟩ := replacedFrom_operand rewritten operand (noDigit_of_isJoint joint (Or.inr start))
    (ends.append blank)
  have gap : ∀ c ∈ addend.gap, isJoint c := fun c member => isJoint_of_isGap (blank c member)
  refine ⟨addend.gap.getLast?.or own, ?_⟩
  rw [Addend.text, List.append_assoc, replacedFrom_joint joint, List.append_assoc, stays, replacedFrom_joint gap]
  simp only [Addend.text, List.append_assoc]

private theorem replacedFrom_othersText {others : List (Sign × Addend)}
    (written : ∀ other ∈ others, other.1.Written ∧ other.2.Written) :
    replacedFrom singleD20 dice before (othersText .normal others) = othersText state others := by
  induction others generalizing before with
  | nil => exact replacedFrom_nil
  | cons other others ih =>
    obtain ⟨⟨sign, addend⟩, written⟩ := List.forall_mem_cons.mp written
    have joint : ∀ c ∈ other.1.text, isJoint c := fun c member => isJoint_of_mem_sign sign member
    have start : noDigit (other.1.text.getLast?.or before) :=
      noDigit_of_isJoint joint (Or.inl (List.cons_ne_nil _ _))
    obtain ⟨own, stays⟩ := replacedFrom_addend rewritten addend start (endsOperand_othersText others)
    rw [othersText_cons, othersText_cons, replacedFrom_joint joint, stays, ih written]

/-- The advantage step writes the single d20 of a sum as a pair, and nothing else anew. -/
theorem withDice_text {sum : SignedSum} (written : sum.Written) :
    withDice dice (sum.text .normal) = sum.text state := by
  have start : noDigit none := rfl
  have ends : EndsOperand (othersText .normal sum.others) := endsOperand_othersText sum.others
  obtain ⟨own, stays⟩ := replacedFrom_addend rewritten written.1 start ends
  exact stays.trans (congrArg _ (replacedFrom_othersText rewritten written.2))

end Rewritten

private theorem Session.applyAdvantage_sum (s : Session) {sum : SignedSum} (written : sum.Written)
    (notes : List String) :
    (s.applyAdvantage (sum.formula .normal) notes).formula = sum.formula s.advantage := by
  cases rewritten : s.advantage.dice with
  | none =>
    have normal : s.advantage = .normal := by
      cases state : s.advantage <;> simp [state, Advantage.dice] at rewritten ⊢
    simp only [applyAdvantage, normal, Advantage.dice]
    rfl
  | some dice =>
    rw [applyAdvantage_formula rewritten, SignedSum.formula, SignedSum.formula, String.toList_ofList,
      withDice_text rewritten written]

/-- A sum with one single d20 shows under advantage what it shows with the better of the two faces that fall for its
d20: the higher, or the lower under disadvantage. -/
theorem Session.shown_applyAdvantage {ε : Type} {library : Library ε} (sums : library.RollsSums) {s : Session}
    {highest : Bool} (kept : s.advantage.highest? = some highest) {sum : SignedSum} (written : sum.Written)
    (single : sum.operands.countP Operand.isD20 = 1) {faces : Faces} (notes : List String) (label : Option String)
    {result own : Rolled}
    (paired : library.roll faces (s.applyAdvantage (sum.formula .normal) notes).formula = .ok result)
    (plain : library.roll (faces.better highest sum.diceBefore) (sum.formula .normal) = .ok own) :
    ∃ outcome other,
      library.rollFormula faces (s.applyAdvantage (sum.formula .normal) notes).formula label = .ok outcome ∧
        library.rollFormula (faces.better highest sum.diceBefore) (sum.formula .normal) label = .ok other ∧
        outcome.shown = other.shown := by
  rw [s.applyAdvantage_sum written] at paired ⊢
  exact sums.shown_better kept written single label paired plain

/-- A bonus, a d20 without its count and another die. -/
def blessedSum : SignedSum :=
  ⟨⟨[⟨true, []⟩], .integer ['1'], [' ']⟩,
    [(⟨false, [' ']⟩, ⟨[], .d20 false, []⟩), (⟨false, []⟩, ⟨[], .dice ['1'] ['4'], []⟩)]⟩

theorem Session.shown_applyAdvantage_blessed :
    (Session.applyAdvantage { empty with advantage := .disadvantage } "-1 + d20+1d4" []).formula =
        "-1 + 2d20kl1+1d4" ∧
      ∃ outcome other, library.rollFormula (Faces.ofList [17, 5, 3]) "-1 + 2d20kl1+1d4" none = .ok outcome ∧
        library.rollFormula ((Faces.ofList [17, 5, 3]).better false 0) "-1 + d20+1d4" none = .ok other ∧
        outcome.shown = other.shown ∧ other.shown = ⟨7, [5, 3], false, false⟩ := by
  have kept : ({ empty with advantage := .disadvantage } : Session).advantage.highest? = some false := rfl
  have written : blessedSum.Written := by decide
  have formula : blessedSum.formula .normal = "-1 + d20+1d4" := by decide
  have rewritten : (Session.applyAdvantage { empty with advantage := .disadvantage } "-1 + d20+1d4" []).formula =
      "-1 + 2d20kl1+1d4" := by decide +kernel
  have accepts : (library.roll (Faces.ofList [17, 5, 3]) "-1 + 2d20kl1+1d4").toOption.isSome ∧
      (library.roll ((Faces.ofList [17, 5, 3]).better false 0) "-1 + d20+1d4").toOption.isSome := by decide +kernel
  obtain ⟨⟨result, paired⟩, own, plain⟩ := accepts.imp Option.isSome_iff_exists.mp Option.isSome_iff_exists.mp
  replace paired := eq_ok_of_toOption paired
  replace plain := eq_ok_of_toOption plain
  rw [← rewritten, ← formula] at paired
  rw [← formula] at plain
  obtain ⟨outcome, other, first, second, same⟩ :=
    shown_applyAdvantage library_rollsSums kept written (by decide) [] none paired plain
  rw [formula, rewritten] at first
  rw [formula] at second
  have shown : (library.rollFormula ((Faces.ofList [17, 5, 3]).better false 0) "-1 + d20+1d4" none).toOption.map
      Outcome.shown = some ⟨7, [5, 3], false, false⟩ := by decide +kernel
  refine ⟨rewritten, outcome, other, first, second, same, ?_⟩
  exact Option.some.inj ((congrArg (fun outcome => outcome.toOption.map Outcome.shown) second).symm.trans shown)

end HeroSheet
