import HeroSheet.Proofs.Formula.Refused
import HeroSheet.Proofs.Formula.Rendered

namespace HeroSheet

namespace PhraseReader

variable {ε σ ω α : Type} {kind : ε → Prop} {own reader : PhraseReader ε σ α} {operator? : σ → Option ω}
  {combine : ω → α → α → α}

/-- The first outcome is the second one, or a fault of a kind. -/
def Limited {β : Type} (kind : ε → Prop) (own outcome : Except ε β) : Prop :=
  own = outcome ∨ ∃ fault, own = .error fault ∧ kind fault

/-- What stops with the fault of a part is limited as the part is. -/
theorem Limited.step {β γ : Type} {own outcome : Except ε β} {whole other : Except ε γ} (part : Limited kind own outcome)
    (stops : ∀ fault, own = .error fault → whole = .error fault) (goes : own = outcome → Limited kind whole other) :
    Limited kind whole other := by
  rcases part with same | ⟨fault, limited, bad⟩
  · exact goes same
  · exact Or.inr ⟨fault, stops fault limited, bad⟩

/-- The first reader comes to what the second one comes to, or to a fault of a kind. -/
def Falters (kind : ε → Prop) (own reader : PhraseReader ε σ α) : Prop :=
  ∀ symbols, Limited kind (own symbols) (reader symbols)

theorem Falters.chainFrom (falters : Falters kind own reader) (left : α) (symbols : List σ) :
    Limited kind (chainFrom own operator? combine left symbols) (chainFrom reader operator? combine left symbols) := by
  obtain ⟨n, size⟩ : ∃ n, symbols.length = n := ⟨_, rfl⟩
  induction n using Nat.strong_induction_on generalizing left symbols with
  | h n ih =>
    subst size
    cases symbols with
    | nil => exact Or.inl (by rw [PhraseReader.chainFrom, PhraseReader.chainFrom])
    | cons symbol rest =>
      rw [PhraseReader.chainFrom, PhraseReader.chainFrom]
      split
      · exact Or.inl rfl
      · rename_i op found
        refine (falters rest).step (fun fault limited => by rw [limited]) fun same => ?_
        rw [same]
        split
        · exact Or.inl rfl
        · rename_i right after shorter reads
          have others := ih after.length (Nat.lt_succ_of_lt shorter) (combine op left right) after rfl
          exact others.step (fun fault limited => by rw [limited]) fun same => Or.inl (by rw [same])

theorem Falters.chain (falters : Falters kind own reader) :
    Falters kind (chain own operator? combine) (chain reader operator? combine) := by
  intro symbols
  unfold PhraseReader.chain
  refine (falters symbols).step (fun fault limited => by rw [limited]) fun same => ?_
  rw [same]
  split
  · exact Or.inl rfl
  · rename_i left after shorter reads
    exact (falters.chainFrom left after).step (fun fault limited => by rw [limited]) fun same => Or.inl (by rw [same])

end PhraseReader

namespace Formula

open PhraseReader

section Room

variable {kind : Fault → Prop} {own inner : Reader Expr}

theorem falters_sum (falters : Falters kind own inner) : Falters kind (sum own) (sum inner) := falters.chain.chain

private theorem falters_argumentsFrom (falters : Falters kind own inner) (tokens : List Token) :
    Limited kind (argumentsFrom own tokens) (argumentsFrom inner tokens) := by
  obtain ⟨n, size⟩ : ∃ n, tokens.length = n := ⟨_, rfl⟩
  induction n using Nat.strong_induction_on generalizing tokens with
  | h n ih =>
    subst size
    cases tokens with
    | nil => exact Or.inl (by rw [argumentsFrom, argumentsFrom])
    | cons token rest =>
      rw [argumentsFrom, argumentsFrom]
      split
      · refine (falters rest).step (fun fault limited => by rw [limited]) fun same => ?_
        rw [same]
        split
        · exact Or.inl rfl
        · rename_i arg after shorter reads
          have others := ih after.length (Nat.lt_succ_of_lt shorter) after rfl
          exact others.step (fun fault limited => by rw [limited]) fun same => Or.inl (by rw [same])
      · exact Or.inl rfl

private theorem falters_call (falters : Falters kind own inner) (f : Function) (name : Token) :
    Falters kind (call own f name) (call inner f name) := by
  intro tokens
  unfold call
  split
  · exact Or.inl rfl
  · rename_i inside opened expected
    refine (falters inside).step (fun fault limited => by rw [limited]) fun same => ?_
    rw [same]
    split
    · exact Or.inl rfl
    · rename_i first after shorter reads
      have others := falters_argumentsFrom falters after
      exact others.step (fun fault limited => by rw [limited]) fun same => Or.inl (by rw [same])

private theorem falters_primary (falters : Falters kind own inner) : Falters kind (primary own) (primary inner) := by
  intro tokens
  unfold primary
  split
  · exact Or.inl rfl
  · rename_i token rest
    split
    · exact Or.inl rfl
    · split
      · have operand := falters rest
        exact operand.step (fun fault limited => by rw [limited]) fun same => Or.inl (by rw [same])
      · exact Or.inl rfl
    · have group := falters_sum falters rest
      exact group.step (fun fault limited => by rw [limited]) fun same => Or.inl (by rw [same])
    · split
      · exact Or.inl rfl
      · rename_i f named
        have call := falters_call (falters_sum falters) f token rest
        exact call.step (fun fault limited => by rw [limited]) fun same => Or.inl (by rw [same])
    · exact Or.inl rfl

/-- The text is too long or nested too deep. -/
def Fault.ExceedsLimit : Fault → Prop
  | .malformed .tooManyTokens _ _ _ | .malformed .nestedTooDeep _ _ _ => True
  | _ => False

/-- Less room makes a difference only where it is all taken. -/
theorem falters_factor (room : Nat) : Falters Fault.ExceedsLimit (factor room) (factor (room + 1)) := by
  induction room with
  | zero => exact fun tokens => Or.inr ⟨.atToken tokens.head? .nestedTooDeep, rfl, trivial⟩
  | succ room ih => exact falters_primary ih

end Room

section Call

variable {tokens : List Token} {name opening closing : Token} {f : Function} {e : Expr}

private theorem limited_factor_call {room : Nat} (kind : name.kind = .function)
    (named : Function.ofName? name.text = some f)
    (opens : opening.kind = .openParen) (closes : closing.kind = .closeParen) (single : f.accepts 1)
    (argument : Reads (sum (factor (room + 1))) (tokens ++ [closing]) e [closing]) :
    Reads (factor (room + 1)) (name :: opening :: (tokens ++ [closing])) (.call f [e]) [] ∨
      ∃ fault, factor (room + 1) (name :: opening :: (tokens ++ [closing])) = .error fault ∧ fault.ExceedsLimit := by
  rcases falters_sum (falters_factor room) (tokens ++ [closing]) with same | ⟨fault, limited, exceeds⟩
  · have inside : Reads (sum (factor room)) (tokens ++ [closing]) e [closing] := by
      rw [Reads, same]
      exact argument
    have last : comma? closing = none := if_neg (by rw [closes]; decide)
    have arguments : Reads (callArguments (sum (factor room))) (tokens ++ [closing]) [e] [closing] := by
      refine reads_chain_iff.mpr ⟨[e], [closing], reads_single_iff.mpr ⟨e, rfl, inside⟩, .stop ?_⟩
      intro token here
      obtain rfl := Option.some.inj here
      exact last
    exact Or.inl (reads_primary_iff.mpr (.operand (.call kind named opens arguments closes single)))
  · refine Or.inr ⟨fault, ?_, exceeds⟩
    simp only [factor, primary, kind, named, call, expect_of_kind opens, limited]

/-- A call of what has a tree has the call of that tree, or comes to a limit. -/
theorem limited_parse_call (sound : ∀ token ∈ tokens, token.Sound) (kind : name.kind = .function)
    (named : Function.ofName? name.text = some f) (opens : opening.kind = .openParen) (closing : Token)
    (closes : closing.kind = .closeParen) (ends : closing.Sound) (single : f.accepts 1) (parsed : parse tokens = .ok e) :
    Limited Fault.ExceedsLimit (parse (name :: opening :: (tokens ++ [closing]))) (.ok (.call f [e])) := by
  by_cases many : maxTokens < (name :: opening :: (tokens ++ [closing])).length
  · exact Or.inr ⟨.nowhere .tooManyTokens, by rw [parse, if_neg (List.cons_ne_nil _ _), if_pos many], trivial⟩
  · obtain ⟨_, _, derives⟩ := (parse_eq_ok_iff sound).mp parsed
    have enclosed : ∀ token ∈ tokens ++ [closing], token.Sound :=
      List.forall_mem_append.mpr ⟨sound, List.forall_mem_singleton.mpr ends⟩
    have argument : Reads (sum (factor maxDepth)) (tokens ++ [closing]) e [closing] :=
      Recognises.enclosed (recognises_sum (recognises_factor maxDepth)) enclosed derives (ends.ends (Or.inr closes))
    rcases limited_factor_call kind named opens closes single argument with reads | ⟨fault, limited, exceeds⟩
    · exact Or.inl (parse_of_reads (Nat.not_lt.mp many) reads)
    · refine Or.inr ⟨fault, ?_, exceeds⟩
      have refused : factor maxDepth (name :: opening :: (tokens ++ [closing])) = .error fault := limited
      rw [parse, if_neg (List.cons_ne_nil _ _), if_neg many]
      simp only [sum, chain, refused]

end Call

end Formula

end HeroSheet
