import HeroSheet.Proofs.Formula.Parsed

namespace HeroSheet

namespace Formula

open PhraseReader

section Symbols

variable {token : Token} {symbol : Symbol}

theorem text_ne_of_numerals {text : List Char} {c : Char} (chars : ∀ d ∈ text, isNumeralChar d)
    (other : isNumeralChar c = false) : text ≠ [c] := by
  rintro rfl
  have numeral := chars c List.mem_cons_self
  rw [other] at numeral
  cases numeral

/-- Operators of tokens are those of their symbols. -/
theorem addSymbol?_eq (means : token.Means symbol) :
    addSymbol? symbol = (addOperator? token).map Operator.rolled := by
  cases means with
  | number position chars reads =>
    rw [addOperator?, if_neg (text_ne_of_numerals chars (by decide)),
      if_neg (text_ne_of_numerals chars (by decide))]
    rfl
  | operator op position => cases op <;> rfl
  | function f position => cases f <;> rfl
  | openParen | closeParen | comma => rfl

private theorem mulSymbol?_eq (means : token.Means symbol) :
    mulSymbol? symbol = (mulOperator? token).map Operator.rolled := by
  cases means with
  | number position chars reads =>
    rw [mulOperator?, if_neg (text_ne_of_numerals chars (by decide)),
      if_neg (text_ne_of_numerals chars (by decide))]
    rfl
  | operator op position => cases op <;> rfl
  | function f position => cases f <;> rfl
  | openParen | closeParen | comma => rfl

theorem commaSymbol?_eq (means : token.Means symbol) : commaSymbol? symbol = comma? token := by
  cases means <;> rfl

theorem operatorsFollow {tokenOperator? : Token → Option Operator} {symbolOperator? : Symbol → Option Dice.Operator}
    (same : ∀ {token symbol}, token.Means symbol →
      symbolOperator? symbol = (tokenOperator? token).map Operator.rolled) :
    OperatorsFollow tokenOperator? Expr.binary symbolOperator? Term.binary Token.Sound Token.symbol Expr.term := by
  refine ⟨fun sound found => ⟨_, ?_, fun _ _ => rfl⟩, fun sound none => ?_⟩
  · obtain ⟨symbol, means⟩ := sound
    rw [means.symbol_eq, same means, found, Option.map_some]
  · obtain ⟨symbol, means⟩ := sound
    rw [means.symbol_eq, same means, none, Option.map_none]

private theorem commasFollow : OperatorsFollow comma? (fun _ before after => before ++ after) commaSymbol?
    (fun _ before after => before ++ after) Token.Sound Token.symbol (List.map Expr.term) := by
  refine ⟨fun sound found => ⟨(), ?_, fun _ _ => List.map_append⟩, fun sound none => ?_⟩
  · obtain ⟨symbol, means⟩ := sound
    rw [means.symbol_eq, commaSymbol?_eq means, found]
  · obtain ⟨symbol, means⟩ := sound
    rw [means.symbol_eq, commaSymbol?_eq means, none]

/-- The symbol is a die. -/
def Symbol.IsDie (symbol : Symbol) : Prop := ∃ sides keeps, symbol = .die sides keeps

private theorem Token.Sound.not_isDie (sound : token.Sound) : ¬ token.symbol.IsDie := by
  obtain ⟨symbol, means⟩ := sound
  rw [means.symbol_eq]
  rintro ⟨sides, keeps, rfl⟩
  cases means

end Symbols

private theorem counted_of_not_isDie {operand : Term} {symbols : List Symbol}
    (none : ∀ symbol ∈ symbols.head?, ¬ symbol.IsDie) : (counted operand symbols).1 = (operand, symbols) := by
  unfold counted
  split
  · rename_i sides keeps rest
    exact absurd ⟨sides, keeps, rfl⟩ (none _ rfl)
  · rfl

section Follow

variable {inner : Reader Expr} {follower : TermReader} {more : List Symbol}

theorem follows_sum (takes : TakesPhrases inner)
    (follows : Follows inner follower Token.Sound Token.symbol Expr.term more) :
    Follows (sum inner) (sumTerm follower) Token.Sound Token.symbol Expr.term more :=
  Follows.chain (Follows.chain follows takes.suffix (operatorsFollow mulSymbol?_eq))
    (Reads.chain_suffix takes.suffix) (operatorsFollow addSymbol?_eq)

private theorem follows_callArguments {argument : Reader Expr} (takes : TakesPhrases argument)
    (follows : Follows argument follower Token.Sound Token.symbol Expr.term more) :
    Follows (callArguments argument) (arguments follower) Token.Sound Token.symbol (List.map Expr.term) more := by
  refine Follows.chain follows.single (fun reads => ?_) commasFollow
  obtain ⟨arg, rfl, read⟩ := reads_single_iff.mp reads
  exact takes.suffix read

/-- What stands in front of more symbols is not taken for a count. -/
theorem not_isDie_of_sound {rest : List Token} (sound : ∀ token ∈ rest, token.Sound)
    (last : rest = [] → more = []) : ∀ symbol ∈ (rest.map Token.symbol ++ more).head?, ¬ symbol.IsDie := by
  intro symbol here
  cases rest with
  | nil =>
    rw [last rfl] at here
    cases here
  | cons token rest =>
    obtain rfl := Option.some.inj here
    exact (sound token List.mem_cons_self).not_isDie

/-- An operand in front of more symbols, and the dice whose count it is there. -/
theorem Operand.follow {tokens rest : List Token} {e : Expr} {term : Term} {after : List Symbol}
    (operand : Operand inner tokens e rest) (takes : TakesPhrases inner)
    (follows : Follows inner follower Token.Sound Token.symbol Expr.term more)
    (sound : ∀ token ∈ tokens, token.Sound)
    (counts : (counted e.term (rest.map Token.symbol ++ more)).1 = (term, after)) :
    Factor follower (tokens.map Token.symbol ++ more) term after := by
  cases operand with
  | @number token _ value kind numeral =>
    have same : token.symbol = .number value := by simp [Token.symbol, Symbol.ofToken?, kind, numeral]
    rw [List.map_cons, List.cons_append, same]
    exact .number counts
  | @group opening closing inside _ _ opens reads closes =>
    have left : opening.symbol = .openParen := by simp [Token.symbol, Symbol.ofToken?, opens]
    have right : closing.symbol = .closeParen := by simp [Token.symbol, Symbol.ofToken?, closes]
    have inside := follows_sum takes follows (fun t member => sound t (List.mem_cons_of_mem _ member)) reads (by simp)
    rw [List.map_cons, List.cons_append, right] at inside
    rw [List.map_cons, List.cons_append, left]
    exact .group inside counts
  | @call name opening closing f inside _ args kind named opens reads closes accepted =>
    have call : name.symbol = .function f := by simp [Token.symbol, Symbol.ofToken?, kind, named]
    have left : opening.symbol = .openParen := by simp [Token.symbol, Symbol.ofToken?, opens]
    have right : closing.symbol = .closeParen := by simp [Token.symbol, Symbol.ofToken?, closes]
    have inside := follows_callArguments (takesPhrases_sum takes) (follows_sum takes follows)
      (fun t member => sound t (List.mem_cons_of_mem _ (List.mem_cons_of_mem _ member))) reads (by simp)
    rw [List.map_cons, List.cons_append, right] at inside
    rw [List.map_cons, List.map_cons, List.cons_append, List.cons_append, call, left]
    rw [Expr.term, Expr.terms_eq] at counts
    exact .call inside (by rw [List.length_map]; exact accepted) counts

private theorem follows_primary (takes : TakesPhrases inner)
    (follows : Follows inner follower Token.Sound Token.symbol Expr.term more) :
    Follows (primary inner) (primaryTerm follower) Token.Sound Token.symbol Expr.term more := by
  intro tokens e rest sound reads last
  have within := (TakesPhrases.suffix (takesPhrases_primary takes) reads).subset
  refine Factor.reads ?_
  cases factored_of_reads reads with
  | operand operand =>
    exact operand.follow takes follows sound
      (counted_of_not_isDie (not_isDie_of_sound (fun t member => sound t (within member)) last))
  | @minus token _ _ operand kind minus reads =>
    have same : token.symbol = .operator .sub := by
      rw [Token.symbol, Symbol.ofToken?, kind, minus]
      rfl
    rw [List.map_cons, List.cons_append, same]
    exact .minus (follows (fun t member => sound t (List.mem_cons_of_mem _ member)) reads last)

theorem follows_factor (room : Nat) (more : List Symbol) :
    Follows (factor room) (factorTerm room) Token.Sound Token.symbol Expr.term more := by
  induction room with
  | zero =>
    rintro tokens e rest sound ⟨_, impossible⟩
    cases impossible
  | succ room ih => exact follows_primary (takesPhrases_factor room) ih

end Follow

/-- Tokens have a tree when they are not too many and one sum takes them all. -/
theorem parse_eq_ok_iff_reads {tokens : List Token} {e : Expr} :
    parse tokens = .ok e ↔ tokens.length ≤ maxTokens ∧ Reads (sum (factor maxDepth)) tokens e [] := by
  constructor
  · intro parsed
    unfold parse at parsed
    split at parsed
    · cases parsed
    · split at parsed
      · cases parsed
      · rename_i few
        split at parsed
        · cases parsed
        · rename_i own shorter reads
          obtain rfl := Except.ok.inj parsed
          exact ⟨Nat.not_lt.mp few, shorter, reads⟩
        · cases parsed
  · rintro ⟨few, shorter, reads⟩
    unfold parse
    rw [if_neg (List.ne_nil_of_length_pos shorter), if_neg (Nat.not_lt.mpr few)]
    simp only [reads]

theorem reads_of_parse {tokens : List Token} {e : Expr} (parsed : parse tokens = .ok e) :
    Reads (sum (factor maxDepth)) tokens e [] :=
  (parse_eq_ok_iff_reads.mp parsed).2

/-- The value of a text is that of the tree of its tokens. -/
theorem evaluate_eq_ok_iff {cs : List Char} {x : Binary64} :
    evaluate cs = .ok x ↔
      ∃ tokens e, Lexes 0 cs tokens ∧ parse tokens = .ok e ∧ e.value = .ok x := by
  unfold evaluate tokenize
  simp only [mapError_eq_ok_iff, bind_eq_ok_iff]
  constructor
  · rintro ⟨tokens, lexed, e, parsed, value⟩
    exact ⟨tokens, e, lexes_of_tokensFrom lexed, parsed, value⟩
  · rintro ⟨tokens, e, lexes, parsed, value⟩
    exact ⟨tokens, tokensFrom_of_lexes lexes, e, parsed, value⟩

theorem isFinite_of_evaluate {cs : List Char} {x : Binary64} (ok : evaluate cs = .ok x) : x.isFinite := by
  obtain ⟨_, _, _, _, value⟩ := evaluate_eq_ok_iff.mp ok
  exact isFinite_of_value value

/-- The tokens of a whole expression make up a phrase. -/
theorem phrased_of_reads {room : Nat} {cs : List Char} {tokens : List Token} {e : Expr} (lexes : Lexes 0 cs tokens)
    (reads : Reads (sum (factor room)) tokens e []) : Phrased tokens := by
  obtain ⟨used, eq, shaped⟩ := takesPhrases_sum (takesPhrases_factor room) reads
  rw [List.append_nil] at eq
  subst eq
  exact shaped lexes.sound

theorem Lexes.line {cs : List Char} {tokens : List Token} (lexes : Lexes 0 cs tokens) :
    Lexes 0 (Text.withoutFinalNewline cs) tokens := by
  unfold Text.withoutFinalNewline
  split
  · rename_i ends
    obtain ⟨line, rfl⟩ := List.getLast?_eq_some_iff.mp ends
    rw [List.dropLast_concat]
    exact lexes.withoutNewline rfl
  · exact lexes

/-- Arithmetic rolls what it evaluates to. -/
theorem rolled?_of_evaluate {cs : List Char} {x : Binary64} (faces : Dice.Faces) (ok : evaluate cs = .ok x) :
    rolled? faces cs = some (unsignedZero x) := by
  obtain ⟨tokens, e, lexes, parsed, value⟩ := evaluate_eq_ok_iff.mp ok
  have reads := reads_of_parse parsed
  have symbols := lexes.line.symbols? (phrased_of_reads lexes reads).slashes (.nil _)
  rw [List.append_nil, symbols?.eq_def [], Option.map_some, List.append_nil] at symbols
  have term := follows_sum (takesPhrases_factor maxDepth) (follows_factor maxDepth []) lexes.sound reads
    fun _ => rfl
  rw [List.append_nil] at term
  rw [rolled?, symbols, Option.bind_some, total?, readTerm?_eq_some_iff.mpr ⟨maxDepth, term⟩, Option.bind_some,
    total_term faces 0 e value, Option.map_some]

end Formula

end HeroSheet
