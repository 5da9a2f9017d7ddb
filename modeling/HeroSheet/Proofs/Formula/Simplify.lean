import HeroSheet.Proofs.Formula.Counted

namespace HeroSheet

namespace Formula

section Dice

variable {cs dice before : List Char}

private theorem splitAtDie?_append (present : cs ≠ []) (plain : ∀ c ∈ cs, c ≠ 'd' ∧ c ≠ 'D') (starts : startsDie dice) :
    splitAtDie? (cs ++ dice) = some (cs, dice) := by
  induction cs with
  | nil => exact absurd rfl present
  | cons c cs ih =>
    cases cs with
    | nil => rw [List.singleton_append, splitAtDie?, if_pos starts]
    | cons d cs =>
      have other := plain d (by simp)
      have later : startsDie (d :: cs ++ dice) = false := startsDie_eq_false other.1 other.2
      rw [List.cons_append, splitAtDie?, later, if_neg Bool.false_ne_true, ih (by simp) fun d member => plain d (by simp [member])]
      rfl

private theorem splitAtDie?_eq_none (plain : ∀ c ∈ cs, c ≠ 'd' ∧ c ≠ 'D') : splitAtDie? cs = none := by
  induction cs with
  | nil => rfl
  | cons c cs ih =>
    have later : startsDie cs = false := by
      cases cs with
      | nil => rfl
      | cons d cs =>
        have other := plain d (by simp)
        exact startsDie_eq_false other.1 other.2
    rw [splitAtDie?, later, if_neg Bool.false_ne_true, ih fun d member => plain d (by simp [member])]
    rfl

private theorem of_splitAtDie? (split : splitAtDie? cs = some (before, dice)) :
    cs = before ++ dice ∧ startsDie dice := by
  induction cs generalizing before with
  | nil => cases split
  | cons c cs ih =>
    rw [splitAtDie?] at split
    split at split
    · rename_i starts
      obtain ⟨rfl, rfl⟩ := Prod.mk.inj (Option.some.inj split)
      exact ⟨rfl, starts⟩
    · obtain ⟨⟨front, back⟩, inner, eq⟩ := Option.map_eq_some_iff.mp split
      obtain ⟨rfl, rfl⟩ := Prod.mk.inj eq
      obtain ⟨rfl, starts⟩ := ih inner
      exact ⟨rfl, starts⟩

theorem withoutFinalNewline_of_not_mem (single : '\n' ∉ cs) : Text.withoutFinalNewline cs = cs :=
  if_neg fun ends => single (List.mem_of_getLast? ends)

/-- Dice behind their count, on one line. -/
theorem of_countAndDice? (parts : countAndDice? cs = some (before, dice)) :
    Text.withoutFinalNewline cs = before ++ dice ∧ '\n' ∉ before ++ dice ∧ startsDie dice := by
  unfold countAndDice? at parts
  simp only at parts
  split at parts
  · cases parts
  · rename_i single
    obtain ⟨eq, starts⟩ := of_splitAtDie? parts
    rw [eq] at single
    exact ⟨eq, by simpa using single, starts⟩

end Dice

section Pass

variable {x y : Binary64} {dice : List Char}

private theorem isArithmetic_plain {c : Char} (arithmetic : isArithmeticChar c) : c ≠ 'e' ∧ c ≠ 'd' ∧ c ≠ 'D' := by
  have others : ∀ d ∈ ['e', 'd', 'D'], isArithmeticChar d = false := forall_of_all (by decide)
  refine ⟨?_, ?_, ?_⟩ <;>
  · rintro rfl
    rw [others _ (by simp)] at arithmetic
    cases arithmetic

theorem plain_of_isNumberChar {c : Char} (char : IsNumberChar c) : (c ≠ 'd' ∧ c ≠ 'D') ∧ c ≠ '\n' :=
  char.of_all (fun d => (d ≠ 'd' ∧ d ≠ 'D') ∧ d ≠ '\n') (by decide)

theorem renderNumber_unsignedZero (finite : x.isFinite) : renderNumber (unsignedZero x) = renderNumber x := by
  rcases rendered_cases finite with ⟨m, same, text⟩ | ⟨m, rfl, nonzero, _⟩
  · rw [same, text, renderNumber_finite, if_neg (by simp)]
  · rw [unsignedZero, if_neg (by simpa [Binary64.isZero] using nonzero)]

/-- What is written for a number has no exponent, if it evaluates at all. -/
theorem not_mem_of_evaluate_renderNumber (finite : x.isFinite) (ok : evaluate (renderNumber x) = .ok y) :
    'e' ∉ renderNumber x := by
  intro exponential
  have single : '\n' ∉ renderNumber x := fun member =>
    (plain_of_isNumberChar (isNumberChar_of_renderNumber finite _ member)).2 rfl
  have rolls := rolled?_of_evaluate (fun _ _ => 1) ok
  have refused := symbols?_renderNumber finite exponential []
  rw [List.append_nil] at refused
  rw [rolled?, withoutFinalNewline_of_not_mem single, refused] at rolls
  cases rolls

/-- What is written for a number evaluates to nothing else, if it evaluates at all. -/
theorem eq_of_evaluate_renderNumber (finite : x.isFinite) (ok : evaluate (renderNumber x) = .ok y) :
    y = unsignedZero x := by
  rw [evaluate_renderNumber finite (not_mem_of_evaluate_renderNumber finite ok)] at ok
  exact (Except.ok.inj ok).symm

/-- One pass writes a value for the count in front of the dice of a formula. -/
structure Rewrites (f count dice : List Char) (x : Binary64) : Prop where
  impure : ¬ isPureArithmetic f
  parts : countAndDice? f = some (count, dice)
  counts : isCount count
  value : evaluate count = .ok x

theorem Rewrites.simplifyOnce_eq {f count : List Char} (rewrites : Rewrites f count dice x) :
    simplifyOnce f = renderNumber x ++ dice := by
  rw [simplifyOnce, if_neg rewrites.impure, rewrites.parts]
  simp only [rewrites.counts, rewrites.value, if_true]

/-- What one pass does: it evaluates arithmetic, or the count of dice, or nothing. -/
theorem simplifyOnce_cases (f : List Char) :
    (∃ x, isPureArithmetic f ∧ evaluate f = .ok x ∧ simplifyOnce f = renderNumber x) ∨
      (∃ count dice x, Rewrites f count dice x) ∨ simplifyOnce f = f := by
  by_cases pure : isPureArithmetic f
  · cases ok : evaluate f with
    | error fault => exact Or.inr (Or.inr (by simp [simplifyOnce, pure, ok]))
    | ok x => exact Or.inl ⟨x, pure, rfl, by simp [simplifyOnce, pure, ok]⟩
  · cases parts : countAndDice? f with
    | none => exact Or.inr (Or.inr (by simp [simplifyOnce, pure, parts]))
    | some split =>
      obtain ⟨count, dice⟩ := split
      by_cases counts : isCount count
      · cases ok : evaluate count with
        | error fault => exact Or.inr (Or.inr (by simp [simplifyOnce, pure, parts, counts, ok]))
        | ok x => exact Or.inr (Or.inl ⟨count, dice, x, pure, parts, counts, ok⟩)
      · exact Or.inr (Or.inr (by simp [simplifyOnce, pure, parts, counts]))

theorem newline_not_mem_renderNumber (finite : x.isFinite) : '\n' ∉ renderNumber x := fun member =>
  (plain_of_isNumberChar (isNumberChar_of_renderNumber finite _ member)).2 rfl

private theorem countAndDice?_renderNumber (finite : x.isFinite) : countAndDice? (renderNumber x) = none := by
  have single := newline_not_mem_renderNumber finite
  unfold countAndDice?
  simp only [withoutFinalNewline_of_not_mem single]
  rw [if_neg (by simpa using single)]
  exact splitAtDie?_eq_none fun c member =>
    (plain_of_isNumberChar (isNumberChar_of_renderNumber finite c member)).1

private theorem countAndDice?_counted (finite : x.isFinite) (starts : startsDie dice) (line : '\n' ∉ dice) :
    countAndDice? (renderNumber x ++ dice) = some (renderNumber x, dice) := by
  have single : '\n' ∉ renderNumber x ++ dice := fun member =>
    (List.mem_append.mp member).elim (newline_not_mem_renderNumber finite) line
  unfold countAndDice?
  simp only [withoutFinalNewline_of_not_mem single]
  rw [if_neg (by simpa using single)]
  exact splitAtDie?_append (renderNumber_ne_nil finite)
    (fun c member => (plain_of_isNumberChar (isNumberChar_of_renderNumber finite c member)).1) starts

private theorem simplifyOnce_renderNumber (finite : x.isFinite) : simplifyOnce (renderNumber x) = renderNumber x := by
  rcases simplifyOnce_cases (renderNumber x) with ⟨y, _, ok, eq⟩ | ⟨count, dice, y, rewrites⟩ | eq
  · rw [eq, eq_of_evaluate_renderNumber finite ok, renderNumber_unsignedZero finite]
  · have none := countAndDice?_renderNumber finite
    rw [rewrites.parts] at none
    cases none
  · exact eq

private theorem simplifyOnce_counted (finite : x.isFinite) (starts : startsDie dice) (line : '\n' ∉ dice) :
    simplifyOnce (renderNumber x ++ dice) = renderNumber x ++ dice := by
  rcases simplifyOnce_cases (renderNumber x ++ dice) with ⟨y, pure, _⟩ | ⟨count, own, y, rewrites⟩ | eq
  · obtain ⟨d, rest, rfl, marks⟩ := head_of_startsDie starts
    have arithmetic := List.all_eq_true.mp (Bool.and_eq_true_iff.mp pure).2 d (by simp)
    have plain := isArithmetic_plain arithmetic
    exact absurd marks (not_or.mpr plain.2)
  · have parts := rewrites.parts
    rw [countAndDice?_counted finite starts line] at parts
    obtain ⟨rfl, rfl⟩ := Prod.mk.inj (Option.some.inj parts)
    rw [rewrites.simplifyOnce_eq, eq_of_evaluate_renderNumber finite rewrites.value,
      renderNumber_unsignedZero finite]
  · exact eq

/-- A second pass changes nothing. -/
theorem simplifyOnce_simplifyOnce (f : List Char) : simplifyOnce (simplifyOnce f) = simplifyOnce f := by
  rcases simplifyOnce_cases f with ⟨x, _, ok, eq⟩ | ⟨count, dice, x, rewrites⟩ | eq
  · rw [eq, simplifyOnce_renderNumber (isFinite_of_evaluate ok)]
  · obtain ⟨_, single, starts⟩ := of_countAndDice? rewrites.parts
    rw [rewrites.simplifyOnce_eq, simplifyOnce_counted (isFinite_of_evaluate rewrites.value) starts]
    exact fun member => single (List.mem_append_right _ member)
  · rw [eq, eq]

private theorem simplify_of_fixed {f : List Char} (fixed : simplifyOnce f = f) (limit : Nat) :
    simplify limit f = f := by
  cases limit with
  | zero => rfl
  | succ limit => rw [simplify, if_pos fixed]

/-- All passes together do what the first one does. -/
theorem simplify_succ (limit : Nat) (f : List Char) : simplify (limit + 1) f = simplifyOnce f := by
  rw [simplify]
  split
  · rename_i same
    exact same.symm
  · exact simplify_of_fixed (simplifyOnce_simplifyOnce f) limit

end Pass

section Rolls

variable {f count dice : List Char} {x : Binary64}

/-- Simplification keeps what a formula rolls, whatever the dice show, and writes a number for nothing but a
single operand before dice. -/
structure PreservesRolls (limit : Nat) (f : List Char) : Prop where
  rolls : ∀ faces, rolled? faces (simplify limit f) = rolled? faces f
  counts : ∀ count dice x, Rewrites f count dice x → IsOperand count

private theorem unsignedZero_unsignedZero (x : Binary64) : unsignedZero (unsignedZero x) = unsignedZero x := by
  by_cases zero : x.isZero
  · rw [unsignedZero.eq_def x, if_pos zero]
    rfl
  · rw [unsignedZero.eq_def x, if_neg zero, unsignedZero, if_neg zero]

theorem rolled?_eq (faces : Dice.Faces) (cs : List Char) :
    rolled? faces cs =
      ((symbols? (Text.withoutFinalNewline cs)).bind (total? faces)).map fun read => unsignedZero read.1 := by
  rw [rolled?, Option.map_bind]
  rfl

private theorem rolled?_renderNumber (faces : Dice.Faces) (ok : evaluate f = .ok x) (plain : 'e' ∉ renderNumber x) :
    rolled? faces (renderNumber x) = rolled? faces f := by
  have again := evaluate_renderNumber (isFinite_of_evaluate ok) plain
  rw [rolled?_of_evaluate faces again, rolled?_of_evaluate faces ok, unsignedZero_unsignedZero]

private theorem rolled?_renderNumber_exponent (faces : Dice.Faces) (finite : x.isFinite)
    (exponential : 'e' ∈ renderNumber x) :
    rolled? faces (renderNumber x) = none := by
  have refused := symbols?_renderNumber finite exponential []
  rw [List.append_nil] at refused
  rw [rolled?, withoutFinalNewline_of_not_mem (newline_not_mem_renderNumber finite), refused, Option.bind_none]

private theorem rolled?_counted (faces : Dice.Faces) (rewrites : Rewrites f count dice x) (single : IsOperand count) :
    rolled? faces (renderNumber x ++ dice) = rolled? faces f := by
  obtain ⟨line, unbroken, starts⟩ := of_countAndDice? rewrites.parts
  have written : '\n' ∉ renderNumber x ++ dice := fun member =>
    (List.mem_append.mp member).elim (newline_not_mem_renderNumber (isFinite_of_evaluate rewrites.value))
      fun behind => unbroken (List.mem_append_right _ behind)
  rw [rolled?_eq, rolled?_eq, withoutFinalNewline_of_not_mem written, line,
    total?_count faces single rewrites.value starts]

/-- Simplification keeps what a formula rolls exactly when the arithmetic it evaluates comes to a number without
an exponent and the count it evaluates is one operand. -/
theorem preservesRolls_iff (limit : Nat) (f : List Char) :
    PreservesRolls (limit + 1) f ↔
      (isPureArithmetic f → ∀ x, evaluate f = .ok x → 'e' ∉ renderNumber x) ∧
        ∀ count dice x, Rewrites f count dice x → IsOperand count := by
  constructor
  · rintro ⟨rolls, counts⟩
    refine ⟨fun pure x ok exponential => ?_, counts⟩
    have once : simplifyOnce f = renderNumber x := by simp [simplifyOnce, pure, ok]
    have same := rolls fun _ _ => 1
    rw [simplify_succ, once, rolled?_renderNumber_exponent _ (isFinite_of_evaluate ok) exponential,
      rolled?_of_evaluate _ ok] at same
    cases same
  · rintro ⟨plain, counts⟩
    refine ⟨fun faces => ?_, counts⟩
    rw [simplify_succ]
    rcases simplifyOnce_cases f with ⟨x, pure, ok, eq⟩ | ⟨count, dice, x, rewrites⟩ | eq
    · rw [eq, rolled?_renderNumber faces ok (plain pure x ok)]
    · rw [rewrites.simplifyOnce_eq, rolled?_counted faces rewrites (counts count dice x rewrites)]
    · rw [eq]

/-- A sum of groups is no count: with every die on two, the formula rolls five, and what is left of it six. -/
theorem not_preservesRolls_groups : ¬ PreservesRolls 1 "(1)+(2)d6".toList := by
  intro preserves
  have same := preserves.rolls fun _ _ => 2
  have before : rolled? (fun _ _ => 2) "(1)+(2)d6".toList = some (.ofInt 5) := by decide +kernel
  have after : rolled? (fun _ _ => 2) (simplify 1 "(1)+(2)d6".toList) = some (.ofInt 6) := by decide +kernel
  rw [before, after] at same
  revert same
  decide +kernel

end Rolls

end Formula

end HeroSheet
