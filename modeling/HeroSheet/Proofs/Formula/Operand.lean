import HeroSheet.Proofs.Formula.Evaluated

namespace HeroSheet

namespace Formula

open PhraseReader

/-- What may stand before the parentheses of a group or a call. -/
def callNames : List (List Char) :=
  [] :: Function.all.flatMap fun f => [f.name, functionQualifier ++ f.name]

/-- One numeral, or one group or call whose first parenthesis is matched by its last character. -/
def IsOperand (cs : List Char) : Prop :=
  (cs ≠ [] ∧ ∀ c ∈ cs, isDecimal c) ∨
    ∃ name ∈ callNames, ∃ inner, cs = name ++ '(' :: (inner ++ [')']) ∧ isBalanced 0 inner

/-- What groups and calls start with. -/
def callMarks : List Char := callNames.map fun name => name.head?.getD '('

section Lexed

variable {position more : Nat} {c : Char} {cs : List Char} {token? : Option Token} {tokens : List Token}

private theorem Lexed.of_callMark (mark : c ∈ callMarks) (lexed : Lexed position c cs token? more) :
    ∃ token, token? = some token ∧ (token.kind = .openParen ∨ token.kind = .function) := by
  have kinds : ∀ c ∈ callMarks, isBlank c = false ∧ isNumeralChar c = false ∧
      (symbolKind? c = none ∨ symbolKind? c = some .openParen) := forall_of_all (by decide)
  obtain ⟨unblank, unnumbered, kinds⟩ := kinds c mark
  cases lexed with
  | blank blank => exact absurd blank (by simp [unblank])
  | number numeral reads => exact absurd numeral (by simp [unnumbered])
  | @mark kind here =>
    rcases kinds with none | opens
    · exact absurd here (by simp [none])
    · rw [opens] at here
      exact ⟨_, rfl, Or.inl (Option.some.inj here).symm⟩
  | function => exact ⟨_, rfl, Or.inr rfl⟩

end Lexed

section Operand

variable {position room : Nat} {cs : List Char} {tokens : List Token} {e : Expr}

/-- A numeral is one token. -/
theorem Lexes.numeral (present : cs ≠ []) (digits : ∀ c ∈ cs, isDecimal c) (lexes : Lexes position cs tokens) :
    ∃ token, tokens = [token] ∧ token.kind = .number := by
  cases lexes with
  | nil => exact absurd rfl present
  | @step _ more c cs token? tokens reads others =>
    have digit := digits c List.mem_cons_self
    obtain ⟨text, rfl, rfl⟩ := (lexed_of_readToken reads).of_numeral (not_isBlank_of_isDecimal digit)
      (by simp [isNumeralChar, isAnyDigit, digit])
    have whole : cs.takeWhile isNumeralChar = cs := List.takeWhile_eq_self_iff.mpr fun d member => by
      simp [isNumeralChar, isAnyDigit, digits d (List.mem_cons_of_mem c member)]
    rw [whole, List.drop_length] at others
    cases others
    exact ⟨_, rfl, rfl⟩

private theorem Lexes.callMark {name inner : List Char} (known : name ∈ callNames)
    (lexes : Lexes position (name ++ '(' :: inner) tokens) :
    ∃ token others, tokens = token :: others ∧ (token.kind = .openParen ∨ token.kind = .function) := by
  have mark : name.head?.getD '(' ∈ callMarks := List.mem_map_of_mem known
  generalize text : name ++ '(' :: inner = cs at lexes
  cases lexes with
  | nil => simp at text
  | @step _ more c cs token? tokens reads others =>
    have head : c = name.head?.getD '(' := by
      cases name with
      | nil => exact (List.cons.inj text).1.symm
      | cons d name => exact (List.cons.inj text).1.symm
    obtain ⟨token, rfl, kind⟩ := (lexed_of_readToken reads).of_callMark (head ▸ mark)
    exact ⟨token, tokens, rfl, kind⟩

private theorem reads_sum_first {inner : Reader Expr} {tokens rest : List Token}
    (reads : Reads (sum inner) tokens e rest) :
    ∃ first after, Reads inner tokens first after ∧ (after = [] → first = e) := by
  obtain ⟨product, later, products, sums⟩ := reads_chain_iff.mp reads
  obtain ⟨first, after, firsts, factors⟩ := reads_chain_iff.mp products
  refine ⟨first, after, firsts, ?_⟩
  rintro rfl
  obtain ⟨rfl, rfl⟩ := Continues.nil factors
  exact (Continues.nil sums).1

/-- Behind a group or call nothing is left when its last parenthesis is the last character. -/
theorem rest_eq_nil_of_balanced {name inner : List Char} {front content rest : List Token}
    {opening closing : Token} (known : name ∈ callNames) (balanced : isBalanced 0 inner)
    (lexes : Lexes position (name ++ '(' :: (inner ++ [')'])) (front ++ opening :: (content ++ closing :: rest)))
    (named : front = [] ∨ ∃ name, front = [name] ∧ name.kind = .function) (opens : opening.kind = .openParen)
    (shaped : Shaped content) (closes : closing.kind = .closeParen) : rest = [] := by
  by_contra left
  have sound := lexes.sound
  have unnamed : parens (front.flatMap Token.text) = [] := by
    rcases named with rfl | ⟨name, rfl, kind⟩
    · rfl
    · rw [List.flatMap_singleton]
      exact ((sound name (by simp)).unmarked (Or.inr kind)).1
  have phrased := shaped fun t member => sound t (by simp [member])
  have used : front ++ opening :: (content ++ closing :: rest) =
      (front ++ opening :: (content ++ [closing])) ++ rest := by simp
  -- the first parenthesis is closed before the last character
  obtain ⟨before, after, text, present, same⟩ := lexes.split used left
  rw [List.flatMap_append, List.flatMap_cons, List.flatMap_append, List.flatMap_singleton,
    (sound opening (by simp)).text_of_openParen opens, (sound closing (by simp)).text_of_closeParen closes,
    parens_append, unnamed, List.nil_append, parens_append, parens_append] at same
  obtain ⟨init, last, rfl⟩ := (List.eq_nil_or_concat' after).resolve_left present
  rw [← List.cons_append, ← List.append_assoc, ← List.append_assoc] at text
  have whole := congrArg parens (List.append_inj_left' text rfl)
  have plain : ∀ name ∈ callNames, parens name = [] := by decide
  rw [parens_append, parens_append, same, plain name known, List.nil_append] at whole
  have inside : parens inner = parens (content.flatMap Token.text) ++ ')' :: parens init := by
    have tail := congrArg List.tail whole
    simpa [parens] using tail
  rw [← isBalanced_parens, inside, not_isBalanced_of_closing] at balanced
  · cases balanced
  · rw [isBalanced_parens]
    exact phrased.balanced

theorem operand_of_isOperand (single : IsOperand cs) (lexes : Lexes position cs tokens)
    (reads : Reads (sum (factor (room + 1))) tokens e []) : Operand (factor room) tokens e [] := by
  obtain ⟨first, after, firsts, same⟩ := reads_sum_first reads
  have factored := factored_of_reads firsts
  rcases single with ⟨present, digits⟩ | ⟨name, known, inner, rfl, balanced⟩
  · obtain ⟨token, rfl, kind⟩ := lexes.numeral present digits
    have none : after = [] := List.eq_nil_of_length_eq_zero (Nat.lt_one_iff.mp firsts.shorter)
    obtain rfl := same none
    subst none
    cases factored with
    | operand operand => exact operand
    | minus operator => simp [kind] at operator
  · obtain ⟨token, others, rfl, kind⟩ := lexes.callMark known
    cases factored with
    | minus operator => simp [operator] at kind
    | operand operand =>
      rcases operand.enclosed (takesPhrases_factor room) with ⟨number, eq, numeral⟩ |
        ⟨front, opening, content, closing, eq, named, opens, shaped, closes⟩
      · obtain rfl := (List.cons.inj eq).1
        simp [numeral] at kind
      · rw [eq] at lexes
        obtain rfl := rest_eq_nil_of_balanced known balanced lexes named opens shaped closes
        obtain rfl := same rfl
        exact operand

end Operand

end Formula

end HeroSheet
