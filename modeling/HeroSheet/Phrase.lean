/-!
Reading phrases from a list of symbols. A phrase takes at least one symbol, which is why readers that
call each other come to an end. A chain of operands with operators between is grouped to the left.
-/

namespace HeroSheet

/-- What a phrase stands for, and the symbols after it. -/
abbrev Phrase {σ : Type} (α : Type) (symbols : List σ) :=
  { read : α × List σ // read.2.length < symbols.length }

/-- Reads a phrase at the front of symbols. -/
abbrev PhraseReader (ε σ α : Type) := (symbols : List σ) → Except ε (Phrase α symbols)

namespace PhraseReader

variable {ε σ ω α : Type}

/-- Operators and operands after `left`, grouped to the left. -/
def chainFrom (operand : PhraseReader ε σ α) (operator? : σ → Option ω) (combine : ω → α → α → α)
    (left : α) (symbols : List σ) :
    Except ε { read : α × List σ // read.2.length ≤ symbols.length } :=
  match symbols with
  | [] => .ok ⟨(left, []), Nat.le_refl _⟩
  | symbol :: rest =>
    match operator? symbol with
    | none => .ok ⟨(left, symbol :: rest), Nat.le_refl _⟩
    | some op =>
      match operand rest with
      | .error fault => .error fault
      | .ok ⟨(right, after), shorter⟩ =>
        match chainFrom operand operator? combine (combine op left right) after with
        | .error fault => .error fault
        | .ok ⟨read, bound⟩ => .ok ⟨read, by simp at *; omega⟩
termination_by symbols.length
decreasing_by simp at *; omega

/-- An operand, and the operators and operands after it. -/
def chain (operand : PhraseReader ε σ α) (operator? : σ → Option ω) (combine : ω → α → α → α) :
    PhraseReader ε σ α := fun symbols =>
  match operand symbols with
  | .error fault => .error fault
  | .ok ⟨(left, after), shorter⟩ =>
    match chainFrom operand operator? combine left after with
    | .error fault => .error fault
    | .ok ⟨read, bound⟩ => .ok ⟨read, by simp at *; omega⟩

end PhraseReader

end HeroSheet
