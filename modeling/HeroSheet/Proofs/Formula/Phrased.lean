import HeroSheet.Proofs.Formula.Symbols

namespace HeroSheet

namespace Formula

/-- Every parenthesis of the text is matched, when `depth` are open before it. -/
def isBalanced : Nat → List Char → Bool
  | depth, [] => depth = 0
  | depth, c :: cs =>
    if c = '(' then isBalanced (depth + 1) cs
    else if c = ')' then 0 < depth && isBalanced (depth - 1) cs
    else isBalanced depth cs

section Balanced

variable {depth : Nat} {cs ds : List Char}

/-- Only the parentheses of a text matter. -/
theorem isBalanced_parens (depth : Nat) (cs : List Char) :
    isBalanced depth (parens cs) = isBalanced depth cs := by
  induction cs generalizing depth with
  | nil => rfl
  | cons c cs ih =>
    by_cases opens : c = '('
    · subst opens
      exact ih (depth + 1)
    · by_cases closes : c = ')'
      · subst closes
        exact congrArg (0 < depth && ·) (ih (depth - 1))
      · have dropped : parens (c :: cs) = parens cs := by simp [parens, opens, closes]
        rw [dropped, ih, isBalanced, if_neg opens, if_neg closes]

/-- What is balanced leaves open what was open. -/
theorem isBalanced_append (depth : Nat) {inside : Nat} (balanced : isBalanced inside cs) :
    isBalanced (inside + depth) (cs ++ ds) = isBalanced depth ds := by
  induction cs generalizing inside with
  | nil =>
    obtain rfl := of_decide_eq_true balanced
    rw [Nat.zero_add, List.nil_append]
  | cons c cs ih =>
    rw [isBalanced] at balanced
    rw [List.cons_append, isBalanced]
    split at balanced
    · rename_i opens
      rw [if_pos opens, ← ih balanced, Nat.add_right_comm]
    · rename_i opens
      rw [if_neg opens]
      split at balanced
      · rename_i closes
        obtain ⟨within, balanced⟩ := Bool.and_eq_true_iff.mp balanced
        have positive := of_decide_eq_true within
        have wide : decide (0 < inside + depth) = true := decide_eq_true (Nat.lt_add_right depth positive)
        rw [if_pos closes, wide, Bool.true_and, ← ih balanced]
        congr 1
        omega
      · rename_i closes
        rw [if_neg closes]
        exact ih balanced

theorem isBalanced_skip (none : parens cs = []) : isBalanced depth (cs ++ ds) = isBalanced depth ds := by
  rw [← isBalanced_parens, parens_append, none, List.nil_append, isBalanced_parens]

/-- A closing parenthesis behind what is balanced matches none of it. -/
theorem not_isBalanced_of_closing (balanced : isBalanced 0 cs) : isBalanced 0 (cs ++ ')' :: ds) = false := by
  have rest : isBalanced (0 + 0) (cs ++ ')' :: ds) = isBalanced 0 (')' :: ds) := isBalanced_append 0 balanced
  rw [Nat.add_zero] at rest
  rw [rest]
  rfl

end Balanced

/-- The tokens of a phrase. -/
structure Phrased (tokens : List Token) : Prop where
  present : tokens ≠ []
  balanced : isBalanced 0 (tokens.flatMap Token.text)
  starts : ∀ token ∈ tokens.head?, ¬ token.IsSlash
  ends : ∀ token ∈ tokens.getLast?, ¬ token.IsSlash
  slashes : SlashesApart tokens

namespace Phrased

variable {before after tokens : List Token} {token opening closing : Token}

theorem single (none : parens token.text = []) (unslashed : ¬ token.IsSlash) : Phrased [token] := by
  refine ⟨by simp, ?_, by simpa using unslashed, by simpa using unslashed, .singleton _⟩
  rw [List.flatMap_singleton, ← isBalanced_parens, none]
  rfl

/-- Phrases with an operator or a comma between them. -/
theorem join (first : Phrased before) (none : parens token.text = []) (second : Phrased after) :
    Phrased (before ++ token :: after) := by
  refine ⟨by simp, ?_, ?_, ?_, ?_⟩
  · rw [List.flatMap_append, List.flatMap_cons, isBalanced_append 0 first.balanced, isBalanced_skip none]
    exact second.balanced
  · rw [List.head?_append_of_ne_nil _ first.present]
    exact first.starts
  · rw [List.getLast?_append_of_ne_nil _ (List.cons_ne_nil _ _), List.getLast?_cons_of_ne_nil second.present]
    exact second.ends
  · refine List.isChain_append.mpr ⟨first.slashes, List.isChain_cons.mpr ⟨?_, second.slashes⟩, ?_⟩
    · exact fun next here both => second.starts next here both.2
    · exact fun last here _ _ both => first.ends last here both.1

theorem behind (none : parens token.text = []) (unslashed : ¬ token.IsSlash) (phrased : Phrased tokens) :
    Phrased (token :: tokens) := by
  refine ⟨by simp, ?_, by simpa using unslashed, ?_, ?_⟩
  · rw [List.flatMap_cons, isBalanced_skip none]
    exact phrased.balanced
  · rw [List.getLast?_cons_of_ne_nil phrased.present]
    exact phrased.ends
  · exact List.isChain_cons.mpr ⟨fun _ _ both => unslashed both.1, phrased.slashes⟩

/-- A phrase in parentheses. -/
theorem wrapped (opens : opening.text = ['(']) (closes : closing.text = [')']) (phrased : Phrased tokens) :
    Phrased (opening :: (tokens ++ [closing])) := by
  have opened : ¬ opening.IsSlash := by simp [Token.IsSlash, opens]
  have closed : ¬ closing.IsSlash := by simp [Token.IsSlash, closes]
  refine ⟨by simp, ?_, by simpa using opened, ?_, ?_⟩
  · rw [List.flatMap_cons, List.flatMap_append, List.flatMap_singleton, opens, closes]
    exact isBalanced_append 1 phrased.balanced
  · rw [← List.cons_append, List.getLast?_concat]
    simpa using closed
  · refine List.isChain_cons.mpr ⟨fun _ _ both => opened both.1, List.isChain_append.mpr ⟨phrased.slashes, ?_, ?_⟩⟩
    · exact .singleton _
    · exact fun last here _ _ both => phrased.ends last here both.1

end Phrased

section Sound

variable {token : Token}

theorem Token.Sound.text_of_openParen (sound : token.Sound) (kind : token.kind = .openParen) :
    token.text = ['('] := by
  obtain ⟨symbol, means⟩ := sound
  cases means with
  | openParen => rfl
  | _ => cases kind

theorem Token.Sound.text_of_closeParen (sound : token.Sound) (kind : token.kind = .closeParen) :
    token.text = [')'] := by
  obtain ⟨symbol, means⟩ := sound
  cases means with
  | closeParen => rfl
  | _ => cases kind

/-- Numerals and names are no marks. -/
theorem Token.Sound.unmarked (sound : token.Sound) (kind : token.kind = .number ∨ token.kind = .function) :
    parens token.text = [] ∧ ¬ token.IsSlash := by
  obtain ⟨symbol, means⟩ := sound
  cases means with
  | @number text value position chars reads =>
    constructor
    · refine List.filter_eq_nil_iff.mpr fun c member => ?_
      have numeral := chars c member
      simp only [Bool.or_eq_true, beq_iff_eq]
      rintro (rfl | rfl) <;> cases numeral
    · intro slash
      have written : text = ['/'] := slash
      have numeral := chars '/' (by simp [written])
      cases numeral
  | function f position => cases f <;> simp [parens, Token.IsSlash, Function.name]
  | _ => cases kind <;> contradiction

end Sound

/-- Tokens that make up a phrase, if they are sound. -/
def Shaped (tokens : List Token) : Prop := (∀ token ∈ tokens, token.Sound) → Phrased tokens

theorem Shaped.join {before after : List Token} {token : Token} (first : Shaped before)
    (none : token.Sound → parens token.text = []) (second : Shaped after) :
    Shaped (before ++ token :: after) := fun sound =>
  (first fun t member => sound t (List.mem_append_left _ member)).join
    (none (sound token (by simp))) (second fun t member => sound t (by simp [member]))

theorem Shaped.wrapped {opening closing : Token} {tokens : List Token} (opens : opening.kind = .openParen)
    (closes : closing.kind = .closeParen) (shaped : Shaped tokens) :
    Shaped (opening :: (tokens ++ [closing])) := fun sound =>
  (shaped fun t member => sound t (by simp [member])).wrapped
    ((sound opening (by simp)).text_of_openParen opens) ((sound closing (by simp)).text_of_closeParen closes)

end Formula

end HeroSheet
