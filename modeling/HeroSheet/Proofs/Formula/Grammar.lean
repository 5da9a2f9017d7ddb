import HeroSheet.Proofs.Formula.Parsed
import HeroSheet.Proofs.Formula.Symbols
import HeroSheet.Proofs.Phrase.Chained

/-!
The grammar of arithmetic text. A sum is products with plus and minus signs between, a product is factors with
multiplication and division signs between, both grouped to the left; and a factor is a numeral, a call, a sum in
parentheses, or a minus sign and a factor. The tokens of a text have a tree exactly when there is one or more of
them, they are not too many, and the grammar derives that tree from them.
-/

namespace HeroSheet

namespace Formula

open PhraseReader

/-- What tokens are derived to: a relation between tokens and the tree, or the trees, that they write. -/
abbrev Derivation (α : Type) := List Token → α → Prop

/-- Factors with multiplication and division signs between. -/
def IsProduct (factor : Derivation Expr) : Derivation Expr := Chained factor mulOperator? Expr.binary

/-- Products with plus and minus signs between. -/
def IsSum (factor : Derivation Expr) : Derivation Expr := Chained (IsProduct factor) addOperator? Expr.binary

/-- Sums with commas between. -/
def AreArguments (factor : Derivation Expr) : Derivation (List Expr) :=
  Chained (Alone (IsSum factor)) comma? fun _ before after => before ++ after

/-- A factor whose inner factors are derived by `inner`. -/
inductive FactorOf (inner : Derivation Expr) : Derivation Expr where
  | number {token : Token} {value : Binary64} (kind : token.kind = .number)
      (numeral : readReal? token.text = some value) : FactorOf inner [token] (.number value)
  | call {name opening closing : Token} {f : Function} {tokens : List Token} {args : List Expr}
      (kind : name.kind = .function) (named : Function.ofName? name.text = some f)
      (opens : opening.kind = .openParen) (content : AreArguments inner tokens args)
      (closes : closing.kind = .closeParen) (accepted : f.accepts args.length) :
      FactorOf inner (name :: opening :: (tokens ++ [closing])) (.call f args)
  | group {opening closing : Token} {tokens : List Token} {e : Expr} (opens : opening.kind = .openParen)
      (content : IsSum inner tokens e) (closes : closing.kind = .closeParen) :
      FactorOf inner (opening :: (tokens ++ [closing])) e
  | minus {token : Token} {tokens : List Token} {operand : Expr} (kind : token.kind = .operator)
      (text : token.text = ['-']) (content : inner tokens operand) :
      FactorOf inner (token :: tokens) (.neg operand)

/-- A factor in which factors nest no more than `depth` deep, itself included. -/
def IsFactor : (depth : Nat) → Derivation Expr
  | 0 => fun _ _ => False
  | depth + 1 => FactorOf (IsFactor depth)

/-- The grammar derives the tree from the tokens, with factors nested no more than `depth` deep. -/
def Derives (depth : Nat) : Derivation Expr := IsSum (IsFactor depth)

section Depth

variable {inner own : Derivation Expr} {tokens : List Token}

theorem IsSum.mono (factors : ∀ {tokens e}, inner tokens e → own tokens e) {e : Expr} (sum : IsSum inner tokens e) :
    IsSum own tokens e :=
  Chained.mono (Chained.mono factors) sum

theorem FactorOf.mono (factors : ∀ {tokens e}, inner tokens e → own tokens e) {e : Expr}
    (factor : FactorOf inner tokens e) : FactorOf own tokens e := by
  cases factor with
  | number kind numeral => exact .number kind numeral
  | call kind named opens content closes accepted =>
    exact .call kind named opens (Chained.mono (Alone.mono (IsSum.mono factors)) content) closes accepted
  | group opens content closes => exact .group opens (content.mono factors) closes
  | minus kind text content => exact .minus kind text (factors content)

theorem IsFactor.succ {depth : Nat} : ∀ {tokens : List Token} {e : Expr},
    IsFactor depth tokens e → IsFactor (depth + 1) tokens e := by
  induction depth with
  | zero => exact fun impossible => impossible.elim
  | succ depth ih => exact fun factor => FactorOf.mono ih factor

/-- What is derived with factors nested so deep is derived when they may nest deeper. -/
theorem Derives.mono {depth deeper : Nat} (room : depth ≤ deeper) {e : Expr} (derives : Derives depth tokens e) :
    Derives deeper tokens e := by
  induction room with
  | refl => exact derives
  | step _ ih => exact IsSum.mono IsFactor.succ ih

end Depth

section Recognised

variable {inner : Reader Expr} {factor : Derivation Expr}

/-- A comma or a closing parenthesis is no operator. -/
theorem Token.Sound.ends {token : Token} (sound : token.Sound) (kind : token.kind = .comma ∨ token.kind = .closeParen) :
    mulOperator? token = none ∧ addOperator? token = none := by
  obtain ⟨symbol, means⟩ := sound
  cases means with
  | comma | closeParen => exact ⟨rfl, rfl⟩
  | _ => rcases kind with same | same <;> cases same

private theorem mulOperator?_of_addOperator? {token : Token} {op : Operator} (found : addOperator? token = some op) :
    mulOperator? token = none := by
  unfold addOperator? at found
  split at found
  · rename_i text
    rw [mulOperator?, text]
    rfl
  · split at found
    · rename_i text
      rw [mulOperator?, text]
      rfl
    · cases found

/-- A sum is read up to a token that is no operator. -/
theorem recognises_sum (recognises : Recognises Token.Sound inner factor fun _ => True) :
    Recognises Token.Sound (sum inner) (IsSum factor)
      fun token => mulOperator? token = none ∧ addOperator? token = none := by
  have products : Recognises Token.Sound (chain inner mulOperator? Expr.binary) (IsProduct factor)
      fun token => True ∧ mulOperator? token = none := recognises.chain fun _ _ => trivial
  have sums : Recognises Token.Sound (sum inner) (IsSum factor)
      fun token => (True ∧ mulOperator? token = none) ∧ addOperator? token = none :=
    products.chain fun _ found => ⟨trivial, mulOperator?_of_addOperator? found⟩
  simp only [true_and] at sums
  exact sums

theorem recognises_callArguments (recognises : Recognises Token.Sound inner factor fun _ => True) :
    Recognises Token.Sound (callArguments (sum inner)) (AreArguments factor)
      fun token => (mulOperator? token = none ∧ addOperator? token = none) ∧ comma? token = none :=
  (recognises_sum recognises).single.chain fun sound found => sound.ends (Or.inl (kind_of_comma? found))

/-- What stands between parentheses is read up to the closing one. -/
theorem Recognises.enclosed {α : Type} {reader : Reader α} {shape : Derivation α} {stops : Token → Prop}
    (recognises : Recognises Token.Sound reader shape stops) {tokens rest : List Token} {read : α} {closing : Token}
    (sound : ∀ token ∈ tokens ++ closing :: rest, token.Sound) (shaped : shape tokens read) (stopped : stops closing) :
    Reads reader (tokens ++ closing :: rest) read (closing :: rest) := by
  refine (recognises sound).mpr ⟨tokens, rfl, shaped, ?_⟩
  intro token here
  obtain rfl := Option.some.inj here
  exact stopped

private theorem factored_of_factorOf (recognises : Recognises Token.Sound inner factor fun _ => True)
    {used rest : List Token}
    {e : Expr} (sound : ∀ token ∈ used ++ rest, token.Sound) (shaped : FactorOf factor used e) :
    Factored inner (used ++ rest) e rest := by
  cases shaped with
  | number kind numeral => exact .operand (.number kind numeral)
  | @call name opening closing f tokens args kind named opens content closes accepted =>
    have ends := (sound closing (by simp)).ends (Or.inr closes)
    have last : comma? closing = none := if_neg (by rw [closes]; decide)
    have inside : ∀ token ∈ tokens ++ closing :: rest, token.Sound := by
      intro token member
      exact sound token (by simpa using Or.inr (Or.inr (by simpa using member)))
    have reads := Recognises.enclosed (recognises_callArguments recognises) inside content ⟨ends, last⟩
    rw [List.cons_append, List.cons_append, List.append_assoc, List.singleton_append]
    exact .operand (.call kind named opens reads closes accepted)
  | @group opening closing tokens e opens content closes =>
    have ends := (sound closing (by simp)).ends (Or.inr closes)
    have inside : ∀ token ∈ tokens ++ closing :: rest, token.Sound := by
      intro token member
      exact sound token (by simpa using Or.inr (by simpa using member))
    have reads := Recognises.enclosed (recognises_sum recognises) inside content ends
    rw [List.cons_append, List.append_assoc, List.singleton_append]
    exact .operand (.group opens reads closes)
  | @minus token tokens operand kind text content =>
    have behind : ∀ own ∈ tokens ++ rest, own.Sound := (List.forall_mem_cons.mp sound).2
    exact .minus kind text ((recognises behind).mpr ⟨tokens, rfl, content, fun _ _ => trivial⟩)

private theorem factorOf_of_factored (recognises : Recognises Token.Sound inner factor fun _ => True)
    {tokens rest : List Token} {e : Expr} (sound : ∀ token ∈ tokens, token.Sound)
    (factored : Factored inner tokens e rest) : ∃ used, tokens = used ++ rest ∧ FactorOf factor used e := by
  cases factored with
  | operand operand =>
    cases operand with
    | @number token _ value kind numeral => exact ⟨[token], rfl, .number kind numeral⟩
    | @group opening closing inside _ _ opens reads closes =>
      have behind := (List.forall_mem_cons.mp sound).2
      obtain ⟨content, rfl, shaped, _⟩ := (recognises_sum recognises behind).mp reads
      exact ⟨opening :: (content ++ [closing]), by simp, .group opens shaped closes⟩
    | @call name opening closing f inside _ args kind named opens reads closes accepted =>
      have behind := (List.forall_mem_cons.mp (List.forall_mem_cons.mp sound).2).2
      obtain ⟨content, rfl, shaped, _⟩ := (recognises_callArguments recognises behind).mp reads
      exact ⟨name :: opening :: (content ++ [closing]), by simp, .call kind named opens shaped closes accepted⟩
  | @minus token behind _ operand kind text reads =>
    have inside := (List.forall_mem_cons.mp sound).2
    obtain ⟨used, rfl, shaped, _⟩ := (recognises inside).mp reads
    exact ⟨token :: used, rfl, .minus kind text shaped⟩

/-- Factors are read as the grammar has them, when the factors inside of them are. -/
theorem recognises_primary (recognises : Recognises Token.Sound inner factor fun _ => True) :
    Recognises Token.Sound (primary inner) (FactorOf factor) fun _ => True := by
  intro tokens e rest sound
  rw [reads_primary_iff]
  constructor
  · intro factored
    obtain ⟨used, eq, shaped⟩ := factorOf_of_factored recognises sound factored
    exact ⟨used, eq, shaped, fun _ _ => trivial⟩
  · rintro ⟨used, rfl, shaped, _⟩
    exact factored_of_factorOf recognises sound shaped

theorem recognises_factor (depth : Nat) : Recognises Token.Sound (Formula.factor depth) (IsFactor depth) fun _ => True := by
  induction depth with
  | zero =>
    intro tokens e rest sound
    constructor
    · rintro ⟨_, impossible⟩
      cases impossible
    · rintro ⟨_, _, impossible, _⟩
      cases impossible
  | succ depth ih => exact recognises_primary ih

theorem reads_whole_iff_derives {depth : Nat} {tokens : List Token} {e : Expr} (sound : ∀ token ∈ tokens, token.Sound) :
    Reads (sum (Formula.factor depth)) tokens e [] ↔ Derives depth tokens e := by
  rw [recognises_sum (recognises_factor depth) sound]
  constructor
  · rintro ⟨used, rfl, derives, _⟩
    rwa [List.append_nil]
  · intro derives
    exact ⟨tokens, (List.append_nil tokens).symm, derives, by simp⟩

end Recognised

end Formula

end HeroSheet
