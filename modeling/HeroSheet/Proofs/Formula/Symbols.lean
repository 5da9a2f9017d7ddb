import HeroSheet.Proofs.Formula.Tokens
import HeroSheet.Proofs.Outcome
import Mathlib.Data.List.Chain

namespace HeroSheet

namespace Formula

private theorem tokensFrom_nil (position : Nat) : tokensFrom position [] = .ok [] := by
  rw [tokensFrom.eq_def]

private theorem tokensFrom_cons (position : Nat) (c : Char) (cs : List Char) :
    tokensFrom position (c :: cs) =
      (readToken position c cs).bind fun read =>
        (tokensFrom (position + read.2 + 1) (cs.drop read.2)).bind fun tokens =>
          .ok (read.1.toList ++ tokens) := by
  rw [tokensFrom.eq_def]
  rfl

theorem symbols?_cons (c : Char) (cs : List Char) :
    symbols? (c :: cs) = (readSymbol? c cs).bind fun read =>
      (symbols? (cs.drop read.2)).bind fun symbols => some (read.1.toList ++ symbols) := by
  rw [symbols?.eq_def]
  rfl

/-- The tokens that a text is read as. -/
inductive Lexes : Nat → List Char → List Token → Prop where
  | nil {position : Nat} : Lexes position [] []
  | step {position more : Nat} {c : Char} {cs : List Char} {token? : Option Token} {tokens : List Token}
      (reads : readToken position c cs = .ok (token?, more))
      (others : Lexes (position + more + 1) (cs.drop more) tokens) :
      Lexes position (c :: cs) (token?.toList ++ tokens)

theorem lexes_of_tokensFrom {position : Nat} {cs : List Char} {tokens : List Token}
    (reads : tokensFrom position cs = .ok tokens) : Lexes position cs tokens := by
  fun_induction tokensFrom position cs generalizing tokens with
  | case1 position =>
    obtain rfl := Except.ok.inj reads
    exact .nil
  | case2 position c cs ih =>
    obtain ⟨read, first, reads⟩ := bind_eq_ok_iff.mp reads
    obtain ⟨tokens, others, reads⟩ := bind_eq_ok_iff.mp reads
    obtain rfl := Except.ok.inj reads
    exact .step first (ih _ others)

theorem tokensFrom_of_lexes {position : Nat} {cs : List Char} {tokens : List Token}
    (lexes : Lexes position cs tokens) : tokensFrom position cs = .ok tokens := by
  induction lexes with
  | nil => exact tokensFrom_nil _
  | step reads others ih => rw [tokensFrom_cons, reads, Except.bind, ih, Except.bind]

section Lexes

variable {position : Nat} {cs rest : List Char} {tokens : List Token}

/-- What holds of every token that is read at the front of a text holds of all tokens of a text. -/
theorem Lexes.forall_of_reads {p : Token → Prop}
    (single : ∀ {position c cs token more}, readToken position c cs = .ok (some token, more) → p token)
    (lexes : Lexes position cs tokens) : ∀ token ∈ tokens, p token := by
  induction lexes with
  | nil => simp
  | @step position more c cs token? tokens reads others ih =>
    intro token member
    rcases List.mem_append.mp member with first | later
    · obtain rfl := Option.mem_toList.mp first
      exact single reads
    · exact ih token later

theorem Lexes.sound (lexes : Lexes position cs tokens) : ∀ token ∈ tokens, token.Sound :=
  lexes.forall_of_reads fun reads => (lexed_of_readToken reads).sound

theorem parens_append (cs ds : List Char) : parens (cs ++ ds) = parens cs ++ parens ds :=
  List.filter_append ..

/-- Some of the tokens, from the front, are those of the front of the text, as far as parentheses go. -/
theorem Lexes.split (lexes : Lexes position cs tokens) {front back : List Token}
    (parts : tokens = front ++ back) (present : back ≠ []) :
    ∃ before after, cs = before ++ after ∧ after ≠ [] ∧
      parens before = parens (front.flatMap Token.text) := by
  induction lexes generalizing front with
  | nil =>
    obtain ⟨_, none⟩ := List.append_eq_nil_iff.mp parts.symm
    exact absurd none present
  | @step position more c cs token? tokens reads others ih =>
    obtain ⟨skipped, written, none⟩ := (lexed_of_readToken reads).written
    have whole : c :: cs = c :: cs.take more ++ cs.drop more := by
      rw [List.cons_append, List.take_append_drop]
    cases token? with
    | none =>
      obtain ⟨before, after, eq, later, same⟩ := ih parts
      refine ⟨c :: cs.take more ++ before, after, by rw [List.append_assoc, ← eq, ← whole], later, ?_⟩
      rw [parens_append, written, parens_append, none, same]
      rfl
    | some token =>
      cases front with
      | nil => exact ⟨[], c :: cs, rfl, by simp, rfl⟩
      | cons own front =>
        have same : token :: tokens = own :: (front ++ back) := parts
        obtain ⟨rfl, rest⟩ := List.cons.inj same
        obtain ⟨before, after, eq, later, same⟩ := ih rest
        refine ⟨c :: cs.take more ++ before, after, by rw [List.append_assoc, ← eq, ← whole], later, ?_⟩
        rw [parens_append, written, parens_append, none, same, List.flatMap_cons, parens_append]
        simp

/-- A line end behind a text is no token. -/
theorem Lexes.withoutNewline {whole : List Char} (lexes : Lexes position whole tokens)
    (ends : whole = cs ++ ['\n']) : Lexes position cs tokens := by
  induction lexes generalizing cs with
  | nil => simp at ends
  | @step position more c tail token? tokens reads others ih =>
    cases cs with
    | nil =>
      obtain ⟨rfl, rfl⟩ := List.cons.inj ends
      obtain ⟨rfl, rfl⟩ := Prod.mk.inj (Except.ok.inj reads)
      cases others
      exact .nil
    | cons d cs =>
      rw [List.cons_append] at ends
      obtain ⟨rfl, rfl⟩ := List.cons.inj ends
      rw [readToken_append (.newline _)] at reads
      have width := (lexed_of_readToken reads).width
      exact .step reads (ih (List.drop_append_of_le_length width))

/-- The token is a slash. -/
def Token.IsSlash (token : Token) : Prop := token.text = ['/']

/-- No slash stands before a slash. -/
def SlashesApart (tokens : List Token) : Prop :=
  tokens.IsChain fun token next => ¬ (token.IsSlash ∧ next.IsSlash)

theorem Lexes.slash (lexes : Lexes position ('/' :: cs) tokens) :
    ∃ token others, tokens = token :: others ∧ token.IsSlash := by
  cases lexes with
  | step reads others =>
    obtain ⟨rfl, rfl⟩ := Prod.mk.inj (Except.ok.inj reads)
    exact ⟨_, _, rfl, rfl⟩

theorem startsDie_eq_false {c : Char} (small : c ≠ 'd') (capital : c ≠ 'D') : startsDie (c :: cs) = false := by
  cases cs <;> simp [startsDie, small, capital]

/-- Symbols other than dice and remainders are tokens. -/
theorem readSymbol?_eq {c : Char} (apart : c ∉ foreignMarks) (alone : c = '/' → cs.head? ≠ some '/') :
    readSymbol? c cs =
      (readToken 0 c cs).toOption.bind fun read =>
        match read.1 with
        | some token => (Symbol.ofToken? token).map fun symbol => (some symbol, read.2)
        | none => some (none, read.2) := by
  simp only [foreignMarks, List.mem_cons, List.not_mem_nil, or_false, not_or] at apart
  obtain ⟨small, capital, bracket, percent⟩ := apart
  have noDie : readDie? (c :: cs) = none := by
    rw [readDie?, startsDie_eq_false small capital]
    rfl
  have noNotes : Dice.readNotes? (c :: cs) = none := by
    unfold Dice.readNotes?
    split
    · rename_i same
      exact absurd (List.cons.inj same).1 bracket
    · rfl
  have single : ¬ (c = '/' ∧ cs.head? = some '/') := fun both => alone both.1 both.2
  unfold readSymbol?
  simp only [noDie, noNotes, if_neg percent, if_neg single]
  split
  · rename_i reads
    rw [reads]
    rfl
  · rename_i reads
    rw [reads]
    rfl
  · rename_i refused
    rw [refused]
    rfl

private theorem readSymbol?_of_readToken {more : Nat} {c : Char} {token? : Option Token}
    (reads : readToken position c cs = .ok (token?, more)) (alone : c = '/' → cs.head? ≠ some '/') :
    readSymbol? c cs = some (token?.map Token.symbol, more) := by
  have lexed := lexed_of_readToken reads
  rw [readSymbol?_eq lexed.apart alone, readToken_position 0 reads]
  cases token? with
  | none => rfl
  | some token =>
    obtain ⟨symbol, means⟩ := lexed.sound
    have same : Symbol.ofToken? ⟨token.kind, token.text, 0⟩ = some symbol := means.ofToken?
    simp [Except.toOption, same, means.symbol_eq]

/-- The symbols of a text are those of its tokens and of what follows. -/
theorem Lexes.symbols? (lexes : Lexes position cs tokens) (slashes : SlashesApart tokens)
    (parted : Parted cs rest) :
    symbols? (cs ++ rest) = (symbols? rest).map fun symbols => tokens.map Token.symbol ++ symbols := by
  induction lexes with
  | nil => simp
  | @step position more c cs token? tokens reads others ih =>
    have width := (lexed_of_readToken reads).width
    have alone : c = '/' → (cs ++ rest).head? ≠ some '/' := by
      rintro rfl here
      cases cs with
      | nil => exact (parted.apart _ here).2.2 rfl
      | cons d cs =>
        obtain rfl := Option.some.inj here
        obtain ⟨rfl, rfl⟩ := Prod.mk.inj (Except.ok.inj reads)
        obtain ⟨next, others, rfl, slash⟩ := others.slash
        exact (List.isChain_cons_cons.mp slashes).1 ⟨rfl, slash⟩
    have here := readSymbol?_of_readToken ((readToken_append parted).trans reads) alone
    have later := ih slashes.right_of_append
      (parted.suffix ((List.drop_suffix _ _).trans (List.suffix_cons _ _)))
    rw [List.cons_append, symbols?_cons, here, Option.bind_some, List.drop_append_of_le_length width, later]
    cases Formula.symbols? rest with
    | none => rfl
    | some symbols => cases token? <;> rfl

end Lexes

end Formula

end HeroSheet
