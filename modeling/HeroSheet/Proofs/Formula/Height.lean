import HeroSheet.Proofs.Formula.Evaluated

/-!
How high trees are, and how many calls are open at once while they are evaluated. Each level of a tree has been paid
for when it is read: an operator and its right operand are two tokens or more, and a minus sign or a call is a token
or more and takes one level of nesting besides. So two calls a level are no more than there are tokens and levels of
nesting; and there are tokens, as many as may be read, whose tree is as high as that.
-/

namespace HeroSheet

namespace Formula

open PhraseReader

mutual

/-- How many levels the tree has; a number has one. -/
def Expr.height : Expr → Nat
  | .number _ => 1
  | .neg operand => operand.height + 1
  | .binary _ left right => max left.height right.height + 1
  | .call _ args => heightOf args + 1

/-- The height of the highest tree. -/
def heightOf : List Expr → Nat
  | [] => 0
  | e :: es => max e.height (heightOf es)

end

/-- How many calls are open at a call of the function while an argument of it is evaluated: that for the node, and
that for what is computed there. The greatest or the least is chosen by one more, from values that yet another one
goes through. -/
def Function.calls (f : Function) : Nat := if f.isVariadic then 4 else 2

mutual

/-- The most calls that are open at once while the tree is evaluated. -/
def Expr.calls : Expr → Nat
  | .number _ => 2
  | .neg operand => operand.calls + 2
  | .binary _ left right => max left.calls right.calls + 2
  | .call f args => callsOf args + f.calls

/-- The most calls that are open at once while one of the trees is evaluated. -/
def callsOf : List Expr → Nat
  | [] => 0
  | e :: es => max e.calls (callsOf es)

end

theorem Function.calls_bounds (f : Function) : 2 ≤ f.calls ∧ f.calls ≤ 4 := by
  cases f <;> decide

private theorem callsOf_append (es others : List Expr) :
    callsOf (es ++ others) = max (callsOf es) (callsOf others) := by
  induction es with
  | nil => rw [List.nil_append, callsOf, Nat.zero_max]
  | cons e es ih => rw [List.cons_append, callsOf, callsOf, ih, Nat.max_assoc]

mutual

/-- At each level two calls are open or more. -/
theorem two_mul_height_le_calls : ∀ e : Expr, 2 * e.height ≤ e.calls
  | .number _ => by rw [Expr.height, Expr.calls]
  | .neg operand => by
    have below := two_mul_height_le_calls operand
    rw [Expr.height, Expr.calls]
    omega
  | .binary _ left right => by
    have before := two_mul_height_le_calls left
    have behind := two_mul_height_le_calls right
    rw [Expr.height, Expr.calls]
    omega
  | .call f args => by
    have below := two_mul_heightOf_le_callsOf args
    have around := f.calls_bounds.1
    rw [Expr.height, Expr.calls]
    omega

theorem two_mul_heightOf_le_callsOf : ∀ es : List Expr, 2 * heightOf es ≤ callsOf es
  | [] => by rw [heightOf, callsOf]
  | e :: es => by
    have first := two_mul_height_le_calls e
    have others := two_mul_heightOf_le_callsOf es
    rw [heightOf, callsOf]
    omega

end

section Read

variable {inner : Reader Expr} {room : Nat}

theorem weighs_sum (factors : Weighs Expr.calls room inner) : Weighs Expr.calls room (sum inner) := by
  have pairs : ∀ op left right, (Expr.binary op left right).calls ≤ max left.calls right.calls + 2 :=
    fun op left right => by rw [Expr.calls]
  exact (factors.chain pairs).chain pairs

private theorem weighs_callArguments (args : Weighs Expr.calls room inner) :
    Weighs callsOf room (callArguments inner) := by
  refine Weighs.chain ?_ ?_
  · intro tokens many rest reads
    obtain ⟨arg, rfl, read⟩ := reads_single_iff.mp reads
    have first := args read
    rw [callsOf, callsOf, Nat.max_zero]
    exact first
  · intro _ before behind
    rw [callsOf_append]
    omega

/-- One more level of nesting pays for the call that a number or a minus sign is short of, and for one of those of a
function. -/
theorem weighs_primary (factors : Weighs Expr.calls room inner) : Weighs Expr.calls (room + 1) (primary inner) := by
  intro tokens e rest reads
  cases factored_of_reads reads with
  | operand operand =>
    cases operand with
    | number kind numeral =>
      rw [Expr.calls, List.length_cons]
      omega
    | group opens content closes =>
      have inside := weighs_sum factors content
      rw [List.length_cons] at inside ⊢
      omega
    | @call _ _ _ f _ _ _ kind named opens content closes accepted =>
      -- a name, two parentheses and the level make up for four calls
      have inside := weighs_callArguments (weighs_sum factors) content
      have around := f.calls_bounds.2
      rw [Expr.calls, List.length_cons, List.length_cons]
      rw [List.length_cons] at inside
      omega
  | minus kind minus content =>
    have inside := factors content
    rw [Expr.calls, List.length_cons]
    omega

private theorem weighs_factor (room : Nat) : Weighs Expr.calls room (factor room) := by
  induction room with
  | zero =>
    rintro tokens e rest ⟨_, impossible⟩
    cases impossible
  | succ room ih => exact weighs_primary ih

end Read

/-- No more calls are open at once than there are tokens and levels that factors may nest. -/
theorem calls_le_of_parse {tokens : List Token} {e : Expr} (parsed : parse tokens = .ok e) :
    e.calls ≤ tokens.length + maxDepth :=
  weighs_sum (weighs_factor maxDepth) (reads_of_parse parsed)

section Highest

variable {ones : Nat}

private theorem height_pos (e : Expr) : 0 < e.height := by
  cases e <;> rw [Expr.height] <;> omega

def Expr.one : Expr := .number (.ofInt 1)

def oneToken : Token := ⟨.number, ['1'], 0⟩

def minusToken : Token := ⟨.operator, ['-'], 0⟩

def plusToken : Token := ⟨.operator, ['+'], 0⟩

/-- One behind minus signs. -/
def Expr.negatedOne : (minuses : Nat) → Expr
  | 0 => one
  | minuses + 1 => .neg (negatedOne minuses)

/-- Adds one to a tree, again and again. -/
def Expr.plusOnes : (ones : Nat) → Expr → Expr
  | 0, e => e
  | ones + 1, e => plusOnes ones (.binary .add e one)

def plusOnesTokens : (ones : Nat) → List Token
  | 0 => []
  | ones + 1 => plusToken :: oneToken :: plusOnesTokens ones

/-- As many minus signs as may stand behind each other, a one, and ones that are added to it. -/
def highestTokens (ones : Nat) : List Token :=
  List.replicate (maxDepth - 1) minusToken ++ oneToken :: plusOnesTokens ones

def highest (ones : Nat) : Expr := (Expr.negatedOne (maxDepth - 1)).plusOnes ones

private theorem height_negatedOne (minuses : Nat) : (Expr.negatedOne minuses).height = minuses + 1 := by
  induction minuses with
  | zero => rw [Expr.negatedOne, Expr.one, Expr.height]
  | succ minuses ih => rw [Expr.negatedOne, Expr.height, ih]

private theorem height_plusOnes (ones : Nat) (e : Expr) : (e.plusOnes ones).height = e.height + ones := by
  induction ones generalizing e with
  | zero => rfl
  | succ ones ih =>
    have present := height_pos e
    rw [Expr.plusOnes, ih, Expr.height, Expr.one, Expr.height]
    omega

private theorem length_plusOnesTokens (ones : Nat) : (plusOnesTokens ones).length = 2 * ones := by
  induction ones with
  | zero => rfl
  | succ ones ih =>
    rw [plusOnesTokens, List.length_cons, List.length_cons, ih]
    omega

theorem length_highestTokens (ones : Nat) : (highestTokens ones).length = maxDepth + 2 * ones := by
  have nested : maxDepth = 32 := rfl
  rw [highestTokens, List.length_append, List.length_replicate, List.length_cons, length_plusOnesTokens]
  omega

theorem reads_one (inner : Reader Expr) (rest : List Token) : Reads (primary inner) (oneToken :: rest) .one rest :=
  reads_primary_iff.mpr (.operand (.number rfl (by decide +kernel)))

private theorem reads_negatedOne (minuses : Nat) (rest : List Token) :
    Reads (factor (minuses + 1)) (List.replicate minuses minusToken ++ oneToken :: rest) (Expr.negatedOne minuses)
      rest := by
  induction minuses with
  | zero => exact reads_one _ rest
  | succ minuses ih => exact reads_primary_iff.mpr (.minus rfl rfl ih)

/-- A factor before ones that are added is a product by itself. -/
theorem reads_product {inner : Reader Expr} {tokens : List Token} {e : Expr}
    (reads : Reads inner tokens e (plusOnesTokens ones)) :
    Reads (chain inner mulOperator? Expr.binary) tokens e (plusOnesTokens ones) := by
  have ends : ∀ token ∈ (plusOnesTokens ones).head?, mulOperator? token = none := by
    cases ones with
    | zero => simp [plusOnesTokens]
    | succ ones =>
      rintro token ⟨⟩
      rfl
  exact reads_chain_iff.mpr ⟨e, _, reads, .stop ends⟩

private theorem continues_plusOnes (room ones : Nat) (e : Expr) :
    Continues (chain (factor (room + 1)) mulOperator? Expr.binary) addOperator? Expr.binary e (plusOnesTokens ones)
      (e.plusOnes ones) [] := by
  induction ones generalizing e with
  | zero => exact .stop (by simp [plusOnesTokens])
  | succ ones ih => exact .step rfl (reads_product (reads_one _ _)) (ih _)

/-- These tokens are few enough to be read, and their tree is as high as a tree of so many tokens may be. -/
theorem parse_highestTokens (few : (highestTokens ones).length ≤ maxTokens) :
    parse (highestTokens ones) = .ok (highest ones) ∧
      (highest ones).height = ((highestTokens ones).length + maxDepth) / 2 := by
  constructor
  · have product := reads_product (reads_negatedOne (maxDepth - 1) (plusOnesTokens ones))
    exact parse_eq_ok_iff_reads.mpr ⟨few, reads_chain_iff.mpr ⟨_, _, product, continues_plusOnes _ ones _⟩⟩
  · have nested : maxDepth = 32 := rfl
    rw [highest, height_plusOnes, height_negatedOne, length_highestTokens]
    omega

end Highest

end Formula

end HeroSheet
