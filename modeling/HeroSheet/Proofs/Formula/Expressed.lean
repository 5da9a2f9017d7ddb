import HeroSheet.Proofs.Formula.Malformed
import HeroSheet.Proofs.Formula.Valued

/-!
Accepted text without letters and blanks. It is the text of an expression with numerals for its leaves; so it holds
digits, points and marks only, and no two multiplication signs that would be taken for a bold marker.
-/

namespace HeroSheet

namespace Formula

open PhraseReader Text

section Written

variable {tokens : List Token} {token : Token} {factor : Derivation Expr} {level : Level}

/-- A token of a text without letters. -/
def Token.IsUnnamed (token : Token) : Prop := token.Sound ∧ token.kind ≠ .function

/-- The text is that of an expression of the rank. -/
def IsExpression (rank : Rank) (cs : List Char) : Prop := ∃ e : Arithmetic Numeral rank, e.text Numeral.text = cs

/-- What is derived without names is the text of expressions of the rank. -/
def Expresses (rank : Rank) (derivation : Derivation Expr) : Prop :=
  ∀ ⦃tokens : List Token⦄ ⦃e : Expr⦄, (∀ token ∈ tokens, token.IsUnnamed) → derivation tokens e →
    IsExpression rank (tokens.flatMap Token.text)

/-- The operator that the token is in a chain of the level. -/
def Level.operator? : Level → Token → Option Operator
  | .product => mulOperator?
  | .sum => addOperator?

private theorem of_operator? {op : Operator} (found : level.operator? token = some op) :
    token.text = [op.symbol] ∧ op.level = level := by
  have either : ∀ own other : Operator, (if token.text = [own.symbol] then some own
      else if token.text = [other.symbol] then some other else none) = some op →
        token.text = [op.symbol] ∧ (op = own ∨ op = other) := by
    intro own other found
    split at found
    · rename_i text
      obtain rfl := Option.some.inj found
      exact ⟨text, Or.inl rfl⟩
    · split at found
      · rename_i text
        obtain rfl := Option.some.inj found
        exact ⟨text, Or.inr rfl⟩
      · cases found
  cases level with
  | product =>
    obtain ⟨text, rfl | rfl⟩ := either .mul .div found
    · exact ⟨text, rfl⟩
    · exact ⟨text, rfl⟩
  | sum =>
    obtain ⟨text, rfl | rfl⟩ := either .add .sub found
    · exact ⟨text, rfl⟩
    · exact ⟨text, rfl⟩

theorem Expresses.chained {derivation : Derivation Expr} (operands : Expresses level.operand derivation) :
    Expresses (.chain level) (Chained derivation level.operator? Expr.binary) := by
  intro tokens e unnamed chained
  induction chained with
  | one shaped =>
    obtain ⟨only, text⟩ := operands unnamed shaped
    exact ⟨.alone only, text⟩
  | @more before after left right token op start found shaped ih =>
    obtain ⟨front, behind⟩ := List.forall_mem_append.mp unnamed
    obtain ⟨left, first⟩ := ih front
    obtain ⟨right, second⟩ := operands (List.forall_mem_cons.mp behind).2 shaped
    obtain ⟨symbol, own⟩ := of_operator? found
    refine ⟨.binary op own left right, ?_⟩
    rw [Arithmetic.text, first, second, List.flatMap_append, List.flatMap_cons, symbol, List.singleton_append]

theorem Expresses.sum (factors : Expresses .factor factor) : Expresses (.chain .sum) (IsSum factor) := by
  have products : Expresses (.chain .product) (Chained factor mulOperator? Expr.binary) :=
    Expresses.chained factors
  exact Expresses.chained products

theorem Expresses.factorOf (factors : Expresses .factor factor) : Expresses .factor (FactorOf factor) := by
  intro tokens e unnamed shaped
  cases shaped with
  | @number token value kind numeral =>
    obtain ⟨symbol, means⟩ := (unnamed token (List.mem_singleton_self token)).1
    cases means with
    | @number text value position chars reads =>
      obtain ⟨decimals, digit, member, _⟩ := decimals_of_numerals chars reads
      refine ⟨.leaf ⟨text, value, List.ne_nil_of_mem member, decimals, reads⟩, ?_⟩
      rw [Arithmetic.text, List.flatMap_singleton]
    | _ => cases kind
  | @call name opening closing f inside args kind named opens content closes accepted =>
    exact absurd kind (unnamed name List.mem_cons_self).2
  | @group opening closing inside e opens content closes =>
    obtain ⟨first, behind⟩ := List.forall_mem_cons.mp unnamed
    obtain ⟨within, last⟩ := List.forall_mem_append.mp behind
    obtain ⟨inner, text⟩ := factors.sum within content
    refine ⟨.group inner, ?_⟩
    rw [Arithmetic.text, text, List.flatMap_cons, List.flatMap_append, List.flatMap_singleton,
      first.1.text_of_openParen opens, (List.forall_mem_singleton.mp last).1.text_of_closeParen closes,
      List.singleton_append]
  | @minus token inside operand kind minus content =>
    obtain ⟨operand, text⟩ := factors (List.forall_mem_cons.mp unnamed).2 content
    refine ⟨.minus operand, ?_⟩
    rw [Arithmetic.text, text, List.flatMap_cons, minus, List.singleton_append]

private theorem expresses_isFactor (depth : Nat) : Expresses .factor (IsFactor depth) := by
  induction depth with
  | zero => exact fun _ _ _ impossible => impossible.elim
  | succ depth ih => exact ih.factorOf

variable {position : Nat} {cs : List Char}

/-- Without letters and blanks every character is one of a token. -/
theorem Lexes.flatMap_text (unlettered : ∀ d ∈ cs, isLetter d = false) (solid : ∀ d ∈ cs, isBlank d = false)
    (lexes : Lexes position cs tokens) :
    tokens.flatMap Token.text = cs ∧ ∀ token ∈ tokens, token.kind ≠ .function := by
  induction lexes with
  | nil => exact ⟨rfl, fun _ none => nomatch none⟩
  | @step position more c cs token? tokens reads others ih =>
    have within : ∀ d ∈ cs.drop more, d ∈ c :: cs := fun d member =>
      List.mem_cons_of_mem c (List.mem_of_mem_drop member)
    obtain ⟨text, unnamed⟩ :=
      ih (fun d member => unlettered d (within d member)) fun d member => solid d (within d member)
    have whole : c :: cs = c :: cs.take more ++ cs.drop more := by rw [List.cons_append, List.take_append_drop]
    have here : token?.toList.flatMap Token.text = c :: cs.take more ∧ ∀ token ∈ token?, token.kind ≠ .function := by
      cases lexed_of_readToken reads with
      | blank blank =>
        rw [solid c List.mem_cons_self] at blank
        cases blank
      | number numeral reads =>
        rw [List.prefix_iff_eq_take.mp (List.takeWhile_prefix isNumeralChar)]
        simp
      | @mark kind mark =>
        refine ⟨by simp, ?_⟩
        rintro token ⟨⟩ rfl
        unfold symbolKind? at mark
        split at mark <;> cases mark
      | @function f qualifier rest qualified written =>
        have letters : f.name.any isLetter := by cases f <;> decide
        obtain ⟨d, member, letter⟩ := List.any_eq_true.mp letters
        have inside : d ∈ c :: cs := written ▸ List.mem_append_right _ (List.mem_append_left _ member)
        rw [unlettered d inside] at letter
        cases letter
    refine ⟨by rw [List.flatMap_append, here.1, text, ← whole], fun token member => ?_⟩
    rcases List.mem_append.mp member with first | later
    · exact here.2 token (Option.mem_toList.mp first)
    · exact unnamed token later

/-- Accepted text without letters and blanks is that of an expression. -/
theorem isExpression_of_evaluate (unlettered : ∀ d ∈ cs, isLetter d = false) (solid : ∀ d ∈ cs, isBlank d = false)
    {x : Binary64} (ok : evaluate cs = .ok x) : IsExpression (.chain .sum) cs := by
  obtain ⟨tokens, e, lexes, parsed, _⟩ := evaluate_eq_ok_iff.mp ok
  obtain ⟨_, _, derives⟩ := (parse_eq_ok_iff lexes.sound).mp parsed
  obtain ⟨text, unnamed⟩ := lexes.flatMap_text unlettered solid
  rw [← text]
  exact (expresses_isFactor maxDepth).sum (fun token member => ⟨lexes.sound token member, unnamed token member⟩) derives

end Written

section Stars

variable {front back cs : List Char} {d : Char} {rank : Rank}

/-- No multiplication sign stands at an end of the text or before another one. -/
structure StarsApart (cs : List Char) : Prop where
  starts : ∀ d ∈ cs.head?, d ≠ '*'
  ends : ∀ d ∈ cs.getLast?, d ≠ '*'
  single : ¬ boldMarker <:+: cs

theorem starsApart_of_not_mem (absent : '*' ∉ cs) : StarsApart cs where
  starts _ here same := absent (same ▸ List.mem_of_mem_head? here)
  ends _ here same := absent (same ▸ List.mem_of_mem_getLast? here)
  single within := absent (within.subset List.mem_cons_self)

/-- A character between texts; a multiplication sign has to be between two of them. -/
theorem StarsApart.join (first : StarsApart front) (second : StarsApart back)
    (inner : d = '*' → front ≠ [] ∧ back ≠ []) : StarsApart (front ++ d :: back) := by
  have start : ∀ own ∈ (d :: back).head?, own = '*' → front ≠ [] ∧ back ≠ [] := by
    rintro own ⟨⟩
    exact inner
  refine ⟨fun own here same => ?_, fun own here same => ?_, fun within => ?_⟩
  · cases front with
    | nil => exact (start own here same).1 rfl
    | cons e front => exact first.starts own here same
  · rw [List.getLast?_append_of_ne_nil _ (List.cons_ne_nil d back)] at here
    cases back with
    | nil =>
      obtain rfl := Option.some.inj here
      exact (inner same).2 rfl
    | cons e back => exact second.ends own (List.getLast?_cons_cons ▸ here) same
  · have behind : ∀ word, word <+: d :: back → word ≠ boldMarker := by
      rintro _ begins rfl
      obtain ⟨rfl, next⟩ := List.cons_prefix_cons.mp begins
      obtain ⟨rest, rfl⟩ := next
      exact second.starts '*' rfl rfl
    rcases List.infix_append_iff.mp within with before | later | ⟨left, right, split, ends, begins⟩
    · exact first.single before
    · rcases List.infix_cons_iff.mp later with begins | later
      · exact behind _ begins rfl
      · exact second.single later
    · rcases List.eq_nil_or_concat' left with rfl | ⟨left, last, rfl⟩
      · exact behind right begins split.symm
      · obtain ⟨more, rfl⟩ := ends
        have star : last ∈ boldMarker := split ▸ by simp
        exact first.ends last (by simp) (by simpa [boldMarker] using star)

private theorem starsApart_text (e : Arithmetic Numeral rank) : StarsApart (e.text Numeral.text) := by
  have nothing : StarsApart [] := starsApart_of_not_mem (List.not_mem_nil)
  have present : ∀ {rank : Rank} (e : Arithmetic Numeral rank), e.text Numeral.text ≠ [] :=
    Arithmetic.text_ne_nil Numeral.present
  induction e with
  | leaf numeral =>
    refine starsApart_of_not_mem fun member => ?_
    have char : isNumeralChar '*' := numeral.isNumeralChar_of_mem member
    exact absurd char (by decide)
  | minus operand ih => exact nothing.join ih (absurd · (by decide))
  | group inner ih => exact nothing.join (ih.join nothing (absurd · (by decide))) (absurd · (by decide))
  | alone only ih => exact ih
  | binary op own left right first second => exact first.join second fun _ => ⟨present left, present right⟩

end Stars

section Expression

variable {cs : List Char} {rank : Rank} (expression : IsExpression rank cs)
include expression

theorem IsExpression.ne_nil : cs ≠ [] := by
  obtain ⟨e, rfl⟩ := expression
  exact e.text_ne_nil Numeral.present

theorem IsExpression.isPureArithmetic : isPureArithmetic cs := by
  obtain ⟨e, rfl⟩ := expression
  exact isPureArithmetic_text e

theorem IsExpression.letterless : Letterless cs := by
  obtain ⟨e, rfl⟩ := expression
  exact Arithmetic.forall_mem_text (forall_of_all (by decide)) fun numeral _ => isNameStart_of_numeral numeral

theorem IsExpression.undelimited : Undelimited cs := fun d member =>
  not_delimiter_of_isArithmeticChar
    (List.all_eq_true.mp (Bool.and_eq_true_iff.mp expression.isPureArithmetic).2 d member)

theorem IsExpression.starsApart : StarsApart cs := by
  obtain ⟨e, rfl⟩ := expression
  exact starsApart_text e

end Expression

end Formula

end HeroSheet
