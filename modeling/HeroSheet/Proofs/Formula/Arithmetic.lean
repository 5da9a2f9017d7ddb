import HeroSheet.Proofs.Formula.Refused
import HeroSheet.Proofs.Formula.Rendered

/-!
Arithmetic as it is written: leaves with operators and parentheses, each expression in the one way in which the
grammar derives its text. Whatever stands at the leaves, an expression whose leaves are numerals is read as its tree
while it is within the limits for tokens and nesting.
-/

namespace HeroSheet

namespace Formula

/-- Chains of operands: products of factors, or sums of products. -/
inductive Level where
  | product
  | sum

/-- What an expression is by itself: one factor, or a chain. -/
inductive Rank where
  | factor
  | chain (level : Level)

def Level.operand : Level → Rank
  | .product => .factor
  | .sum => .chain .product

def Operator.level : Operator → Level
  | .mul => .product
  | .div => .product
  | .add => .sum
  | .sub => .sum

/-- The characters that are no part of a leaf. -/
def marks : List Char := ['+', '-', '*', '/', '(', ')']

/-- Arithmetic with leaves of a kind. -/
inductive Arithmetic (α : Type) : Rank → Type where
  | leaf (a : α) : Arithmetic α .factor
  | minus (operand : Arithmetic α .factor) : Arithmetic α .factor
  | group (inner : Arithmetic α (.chain .sum)) : Arithmetic α .factor
  | alone {level : Level} (only : Arithmetic α level.operand) : Arithmetic α (.chain level)
  | binary {level : Level} (op : Operator) (own : op.level = level) (left : Arithmetic α (.chain level))
      (right : Arithmetic α level.operand) : Arithmetic α (.chain level)

namespace Arithmetic

variable {α β : Type} {rank : Rank}

/-- The text of the expression, with leaves written as `write` says. -/
def text (write : α → List Char) {rank : Rank} : Arithmetic α rank → List Char
  | .leaf a => write a
  | .minus operand => '-' :: operand.text write
  | .group inner => '(' :: (inner.text write ++ [')'])
  | .alone only => only.text write
  | .binary op _ left right => left.text write ++ op.symbol :: right.text write

/-- The tree of the expression, with trees for its leaves. -/
def tree (leafTree : α → Expr) {rank : Rank} : Arithmetic α rank → Expr
  | .leaf a => leafTree a
  | .minus operand => .neg (operand.tree leafTree)
  | .group inner => inner.tree leafTree
  | .alone only => only.tree leafTree
  | .binary op _ left right => .binary op (left.tree leafTree) (right.tree leafTree)

/-- The leaves, from left to right. -/
def leaves {rank : Rank} : Arithmetic α rank → List α
  | .leaf a => [a]
  | .minus operand => operand.leaves
  | .group inner => inner.leaves
  | .alone only => only.leaves
  | .binary _ _ left right => left.leaves ++ right.leaves

/-- The number of tokens. -/
def size {rank : Rank} : Arithmetic α rank → Nat
  | .leaf _ => 1
  | .minus operand => operand.size + 1
  | .group inner => inner.size + 2
  | .alone only => only.size
  | .binary _ _ left right => left.size + right.size + 1

/-- How deep factors nest. -/
def nesting {rank : Rank} : Arithmetic α rank → Nat
  | .leaf _ => 1
  | .minus operand => operand.nesting + 1
  | .group inner => inner.nesting + 1
  | .alone only => only.nesting
  | .binary _ _ left right => max left.nesting right.nesting

/-- The expression with factors for its leaves. -/
def bind (f : α → Arithmetic β .factor) {rank : Rank} : Arithmetic α rank → Arithmetic β rank
  | .leaf a => f a
  | .minus operand => .minus (operand.bind f)
  | .group inner => .group (inner.bind f)
  | .alone only => .alone (only.bind f)
  | .binary op own left right => .binary op own (left.bind f) (right.bind f)

theorem text_bind (f : α → Arithmetic β .factor) (write : β → List Char) (e : Arithmetic α rank) :
    (e.bind f).text write = e.text fun a => (f a).text write := by
  induction e with
  | leaf a => rfl
  | minus operand ih => exact congrArg ('-' :: ·) ih
  | group inner ih => exact congrArg (fun cs => '(' :: (cs ++ [')'])) ih
  | alone only ih => exact ih
  | binary op own left right first second => rw [bind, text, text, first, second]

theorem tree_bind (f : α → Arithmetic β .factor) (leafTree : β → Expr) (e : Arithmetic α rank) :
    (e.bind f).tree leafTree = e.tree fun a => (f a).tree leafTree := by
  induction e with
  | leaf a => rfl
  | minus operand ih => exact congrArg Expr.neg ih
  | group inner ih => exact ih
  | alone only ih => exact ih
  | binary op own left right first second => rw [bind, tree, tree, first, second]

theorem mem_leaves_bind {f : α → Arithmetic β .factor} {b : β} {e : Arithmetic α rank} :
    b ∈ (e.bind f).leaves ↔ ∃ a ∈ e.leaves, b ∈ (f a).leaves := by
  induction e with
  | leaf a => simp [bind, leaves]
  | minus operand ih => exact ih
  | group inner ih => exact ih
  | alone only ih => exact ih
  | binary op own left right first second =>
    simp only [bind, leaves, List.mem_append, first, second, or_and_right, exists_or]

/-- Leaves that are written alike make the same text. -/
theorem text_congr {write other : α → List Char} {e : Arithmetic α rank} (same : ∀ a ∈ e.leaves, write a = other a) :
    e.text write = e.text other := by
  induction e with
  | leaf a => exact same a List.mem_cons_self
  | minus operand ih => exact congrArg ('-' :: ·) (ih same)
  | group inner ih => exact congrArg (fun cs => '(' :: (cs ++ [')'])) (ih same)
  | alone only ih => exact ih same
  | binary op own left right first second =>
    obtain ⟨before, behind⟩ := List.forall_mem_append.mp same
    rw [text, text, first before, second behind]

theorem value_binary_congr (op : Operator) {left own right other : Expr} (first : left.value = own.value)
    (second : right.value = other.value) : (Expr.binary op left right).value = (Expr.binary op own other).value := by
  cases op <;> simp only [Expr.value, first, second]

/-- Leaves of the same values make the same value. -/
theorem value_tree_congr {leafTree other : α → Expr} {e : Arithmetic α rank}
    (same : ∀ a ∈ e.leaves, (leafTree a).value = (other a).value) :
    (e.tree leafTree).value = (e.tree other).value := by
  induction e with
  | leaf a => exact same a List.mem_cons_self
  | minus operand ih => rw [tree, tree, Expr.value, Expr.value, ih same]
  | group inner ih => exact ih same
  | alone only ih => exact ih same
  | binary op own left right first second =>
    obtain ⟨before, behind⟩ := List.forall_mem_append.mp same
    exact value_binary_congr op (first before) (second behind)

/-- A property of the characters of leaves and of marks is one of all characters. -/
theorem forall_mem_text {write : α → List Char} {p : Char → Prop} {e : Arithmetic α rank}
    (marks : ∀ c ∈ marks, p c) (leaf : ∀ a ∈ e.leaves, ∀ c ∈ write a, p c) :
    ∀ c ∈ e.text write, p c := by
  have symbol : ∀ op : Operator, p op.symbol := by
    intro op
    cases op <;> exact marks _ (by decide)
  induction e with
  | leaf a => exact leaf a List.mem_cons_self
  | minus operand ih => exact List.forall_mem_cons.mpr ⟨marks _ (by decide), ih leaf⟩
  | group inner ih =>
    refine List.forall_mem_cons.mpr ⟨marks _ (by decide), List.forall_mem_append.mpr ⟨ih leaf, ?_⟩⟩
    exact List.forall_mem_singleton.mpr (marks _ (by decide))
  | alone only ih => exact ih leaf
  | binary op own left right first second =>
    obtain ⟨before, behind⟩ := List.forall_mem_append.mp leaf
    exact List.forall_mem_append.mpr ⟨first before, List.forall_mem_cons.mpr ⟨symbol op, second behind⟩⟩

theorem text_ne_nil {write : α → List Char} (present : ∀ a, write a ≠ []) (e : Arithmetic α rank) :
    e.text write ≠ [] := by
  induction e with
  | leaf a => exact present a
  | minus operand ih => exact List.cons_ne_nil _ _
  | group inner ih => exact List.cons_ne_nil _ _
  | alone only ih => exact ih
  | binary op own left right first second => exact List.append_ne_nil_of_left_ne_nil first _

end Arithmetic

/-- What the grammar derives from the tokens of a rank, with factors as given. -/
def Rank.derivation (factor : Derivation Expr) : Rank → Derivation Expr
  | .factor => factor
  | .chain .product => IsProduct factor
  | .chain .sum => IsSum factor

section Derivation

variable {factor : Derivation Expr} {level : Level} {before after : List Token} {left right : Expr}

private theorem derivation_alone (shaped : level.operand.derivation factor after right) :
    (Rank.chain level).derivation factor after right := by
  cases level with
  | product => exact .one shaped
  | sum => exact .one shaped

private theorem derivation_binary {op : Operator} (own : op.level = level) (position : Nat)
    (start : (Rank.chain level).derivation factor before left)
    (shaped : level.operand.derivation factor after right) :
    (Rank.chain level).derivation factor (before ++ ⟨.operator, [op.symbol], position⟩ :: after)
      (.binary op left right) := by
  cases op <;> subst own
  · exact .more start rfl shaped
  · exact .more start rfl shaped
  · exact .more start rfl shaped
  · exact .more start rfl shaped

end Derivation

/-- A text of decimal digits and points that reads as a number. -/
structure Numeral where
  text : List Char
  value : Binary64
  present : text ≠ []
  chars : ∀ c ∈ text, isDecimal c ∨ c = '.'
  reads : readReal? text = some value

namespace Numeral

def tree (numeral : Numeral) : Expr := .number numeral.value

theorem isNumeralChar_of_mem (numeral : Numeral) {c : Char} (member : c ∈ numeral.text) : isNumeralChar c := by
  rcases numeral.chars c member with decimal | rfl
  · simp only [isNumeralChar, isAnyDigit, decimal, Bool.true_or]
  · rfl

theorem not_isBlank_of_mem (numeral : Numeral) {c : Char} (member : c ∈ numeral.text) : isBlank c = false := by
  rcases numeral.chars c member with decimal | rfl
  · exact not_isBlank_of_isDecimal decimal
  · rfl

end Numeral

section Lexes

variable {position : Nat} {c : Char} {cs rest : List Char} {tokens more : List Token}

/-- A mark is a token by itself. -/
theorem lexes_mark {kind : TokenKind} (mark : c ∈ marks) (here : symbolKind? c = some kind)
    (others : Lexes (position + 1) cs more) : Lexes position (c :: cs) (⟨kind, [c], position⟩ :: more) := by
  have apart : ∀ d ∈ marks, isBlank d = false ∧ isNumeralChar d = false := forall_of_all (by decide)
  have first : readToken position c cs = .ok (some ⟨kind, [c], position⟩, 0) := by
    unfold readToken
    simp only [apart c mark, here, Bool.false_eq_true, if_false]
  exact .step first others

theorem lexes_operator (op : Operator) (others : Lexes (position + 1) cs more) :
    Lexes position (op.symbol :: cs) (⟨.operator, [op.symbol], position⟩ :: more) := by
  cases op <;> exact lexes_mark (by decide) rfl others

end Lexes

namespace Arithmetic

variable {rank : Rank} {position : Nat}

/-- The tokens are as many as the expression has, and the grammar derives its tree from them. -/
def ReadAs (e : Arithmetic Numeral rank) (tokens : List Token) : Prop :=
  tokens.length = e.size ∧
    ∀ depth, e.nesting ≤ depth → rank.derivation (IsFactor depth) tokens (e.tree Numeral.tree)

private theorem readAs_leaf (numeral : Numeral) : (leaf numeral).ReadAs [⟨.number, numeral.text, position⟩] := by
  refine ⟨rfl, fun depth room => ?_⟩
  obtain ⟨depth, rfl⟩ := Nat.exists_eq_add_of_le' room
  exact FactorOf.number rfl numeral.reads

private theorem readAs_minus {operand : Arithmetic Numeral .factor} {tokens : List Token}
    (inside : operand.ReadAs tokens) :
    (minus operand).ReadAs (⟨.operator, ['-'], position⟩ :: tokens) := by
  obtain ⟨count, derives⟩ := inside
  refine ⟨congrArg (· + 1) count, fun depth room => ?_⟩
  obtain ⟨depth, rfl⟩ := Nat.exists_eq_add_of_le' (Nat.le_trans (Nat.le_add_left 1 _) room)
  exact FactorOf.minus rfl rfl (derives depth (Nat.le_of_succ_le_succ room))

private theorem readAs_group {inner : Arithmetic Numeral (.chain .sum)} {tokens : List Token} (position own : Nat)
    (inside : inner.ReadAs tokens) :
    (group inner).ReadAs (⟨.openParen, ['('], position⟩ :: (tokens ++ [⟨.closeParen, [')'], own⟩])) := by
  obtain ⟨count, derives⟩ := inside
  refine ⟨?_, fun depth room => ?_⟩
  · rw [List.length_cons, List.length_append, count]
    rfl
  · obtain ⟨depth, rfl⟩ := Nat.exists_eq_add_of_le' (Nat.le_trans (Nat.le_add_left 1 _) room)
    exact FactorOf.group rfl (derives depth (Nat.le_of_succ_le_succ room)) rfl

private theorem readAs_alone {level : Level} {only : Arithmetic Numeral level.operand} {tokens : List Token}
    (inside : only.ReadAs tokens) : (alone only).ReadAs tokens :=
  ⟨inside.1, fun depth room => derivation_alone (inside.2 depth room)⟩

private theorem readAs_binary (position : Nat) {level : Level} {op : Operator} (own : op.level = level)
    {left : Arithmetic Numeral (.chain level)} {right : Arithmetic Numeral level.operand} {before after : List Token}
    (first : left.ReadAs before) (second : right.ReadAs after) :
    (binary op own left right).ReadAs (before ++ ⟨.operator, [op.symbol], position⟩ :: after) := by
  refine ⟨?_, fun depth room => ?_⟩
  · rw [List.length_append, List.length_cons, first.1, second.1]
    rfl
  · obtain ⟨front, back⟩ := Nat.max_le.mp room
    exact derivation_binary own position (first.2 depth front) (second.2 depth back)

/-- The text of an expression is read as its tokens, whatever mark follows it. -/
theorem lexes_text (e : Arithmetic Numeral rank) (finite : ∀ numeral ∈ e.leaves, numeral.value.isFinite)
    {rest : List Char} {more : List Token} (ends : ∀ c ∈ rest.head?, isNumeralChar c = false)
    (others : Lexes (position + (e.text Numeral.text).length) rest more) :
    ∃ tokens, Lexes position (e.text Numeral.text ++ rest) (tokens ++ more) ∧ e.ReadAs tokens := by
  induction e generalizing position rest more with
  | leaf numeral =>
    have lexes := lexes_number numeral.present
      (fun c member => ⟨numeral.isNumeralChar_of_mem member, numeral.not_isBlank_of_mem member⟩) numeral.reads
      (finite numeral List.mem_cons_self) ends others
    exact ⟨[⟨.number, numeral.text, position⟩], lexes, readAs_leaf numeral⟩
  | minus operand ih =>
    rw [text, List.length_cons, Nat.add_comm _ 1, ← Nat.add_assoc] at others
    obtain ⟨tokens, lexes, inside⟩ := ih finite ends others
    exact ⟨⟨.operator, ['-'], position⟩ :: tokens, lexes_operator .sub lexes, readAs_minus inside⟩
  | group inner ih =>
    rw [text, List.length_cons, List.length_append, List.length_singleton, Nat.add_comm (_ + 1) 1,
      ← Nat.add_assoc, ← Nat.add_assoc] at others
    have closing := lexes_mark (c := ')') (by decide) rfl others
    have stops : ∀ c ∈ (')' :: rest).head?, isNumeralChar c = false := by
      rintro c ⟨⟩
      rfl
    obtain ⟨tokens, lexes, inside⟩ := ih finite stops closing
    have opening := lexes_mark (c := '(') (by decide) rfl lexes
    refine ⟨_, ?_, readAs_group position (position + 1 + (inner.text Numeral.text).length) inside⟩
    rw [text, List.cons_append, List.append_assoc, List.singleton_append, List.cons_append, List.append_assoc,
      List.singleton_append]
    exact opening
  | alone only ih =>
    obtain ⟨tokens, lexes, inside⟩ := ih finite ends others
    exact ⟨tokens, lexes, readAs_alone inside⟩
  | binary op own left right first second =>
    obtain ⟨before, behind⟩ := List.forall_mem_append.mp finite
    rw [text, List.length_append, List.length_cons, Nat.add_comm _ 1, ← Nat.add_assoc, ← Nat.add_assoc] at others
    obtain ⟨later, lexes, after⟩ := second behind ends others
    have operator := lexes_operator op lexes
    have stops : ∀ c ∈ (op.symbol :: (right.text Numeral.text ++ rest)).head?, isNumeralChar c = false := by
      rintro c ⟨⟩
      cases op <;> rfl
    obtain ⟨earlier, lexes, start⟩ := first before stops operator
    refine ⟨_, ?_, readAs_binary (position + (left.text Numeral.text).length) own start after⟩
    rw [text, List.append_assoc, List.cons_append, List.append_assoc, List.cons_append]
    exact lexes

/-- The limits of the evaluator: not too many tokens, no deep nesting, no numeral out of range. -/
structure Fits (e : Arithmetic Numeral rank) : Prop where
  size : e.size ≤ maxTokens
  nesting : e.nesting ≤ maxDepth
  finite : ∀ numeral ∈ e.leaves, numeral.value.isFinite

private theorem one_le_size {α : Type} (e : Arithmetic α rank) : 1 ≤ e.size := by
  induction e with
  | leaf a => exact Nat.le_refl 1
  | minus operand ih => exact Nat.le_add_left 1 _
  | group inner ih => exact Nat.le_add_left 1 _
  | alone only ih => exact ih
  | binary op own left right first second => exact Nat.le_add_left 1 _

/-- Within the limits the text of a sum is read as its tree. -/
theorem parse_text {e : Arithmetic Numeral (.chain .sum)} (fits : e.Fits) :
    ∃ tokens, tokenize (e.text Numeral.text) = .ok tokens ∧ tokens.length = e.size ∧
      parse tokens = .ok (e.tree Numeral.tree) := by
  obtain ⟨tokens, lexes, count, derives⟩ :
      ∃ tokens, Lexes 0 (e.text Numeral.text ++ []) (tokens ++ []) ∧ e.ReadAs tokens :=
    e.lexes_text fits.finite (fun _ none => nomatch none) .nil
  rw [List.append_nil, List.append_nil] at lexes
  refine ⟨tokens, mapError_eq_ok_iff.mpr (tokensFrom_of_lexes lexes), count, ?_⟩
  refine (parse_eq_ok_iff lexes.sound).mpr ⟨?_, ?_, derives maxDepth fits.nesting⟩
  · rw [count]
    exact e.one_le_size
  · rw [count]
    exact fits.size

/-- Within the limits the value of the text is that of the tree. -/
theorem evaluate_text {e : Arithmetic Numeral (.chain .sum)} (fits : e.Fits) :
    (evaluate (e.text Numeral.text)).toOption = (e.tree Numeral.tree).value.toOption := by
  obtain ⟨tokens, read, _, parsed⟩ := parse_text fits
  have steps : (tokenize (e.text Numeral.text) >>= fun tokens => parse tokens >>= Expr.value) =
      (e.tree Numeral.tree).value := by
    rw [read]
    change parse tokens >>= Expr.value = _
    rw [parsed]
    rfl
  change (Except.mapError _ (tokenize (e.text Numeral.text) >>= fun tokens => parse tokens >>= Expr.value)).toOption = _
  rw [steps]
  cases (e.tree Numeral.tree).value <;> rfl

end Arithmetic

end Formula

end HeroSheet
