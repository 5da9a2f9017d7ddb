import HeroSheet.Proofs.Formula.Spaced

/-!
Where tokens stand in a text. They lie one behind the other, with nothing but blanks around them, and what stands at
the place of a token is its text, but for the qualifier of a function. So the texts of the tokens, with a space
between each two, are read as the same tokens.
-/

namespace HeroSheet

namespace Formula

/-- What stands in the text for the token: functions may be qualified there. -/
def Token.written (cs : List Char) (token : Token) : List Char :=
  if token.kind = .function ∧ functionQualifier <+: cs.drop token.position then functionQualifier ++ token.text
  else token.text

/-- Where the token ends in the text. -/
def Token.stop (cs : List Char) (token : Token) : Nat := token.position + (token.written cs).length

/-- The place is one of those that the token takes in the text. -/
def Token.Covers (cs : List Char) (token : Token) (place : Nat) : Prop :=
  token.position ≤ place ∧ place < token.stop cs

/-- The tokens lie one behind the other in the text, from a place on, and only blanks are left between them. -/
structure Tiles (cs : List Char) (start : Nat) (tokens : List Token) : Prop where
  behind : ∀ token ∈ tokens, start ≤ token.position
  apart : tokens.Pairwise fun token next => token.stop cs ≤ next.position
  nonempty : ∀ token ∈ tokens, token.position < token.stop cs
  within : ∀ token ∈ tokens, token.stop cs ≤ cs.length
  sliced : ∀ token ∈ tokens, cs.extract token.position (token.stop cs) = token.written cs
  blank : ∀ place c, start ≤ place → cs[place]? = some c → (¬ ∃ token ∈ tokens, token.Covers cs place) → isBlank c

section Tiles

variable {whole cs : List Char} {start position more : Nat} {c : Char} {token : Token} {tokens : List Token}

theorem Tiles.nil (ended : whole.length ≤ start) : Tiles whole start [] where
  behind := by simp
  apart := .nil
  nonempty := by simp
  within := by simp
  sliced := by simp
  blank place c later here _ := by
    rw [List.getElem?_eq_none (ended.trans later)] at here
    cases here

theorem Tiles.skip (here : whole[start]? = some c) (blank : isBlank c) (tiles : Tiles whole (start + 1) tokens) :
    Tiles whole start tokens where
  behind token member := Nat.le_of_succ_le (tiles.behind token member)
  apart := tiles.apart
  nonempty := tiles.nonempty
  within := tiles.within
  sliced := tiles.sliced
  blank place d later there uncovered := by
    rcases Nat.eq_or_lt_of_le later with rfl | later
    · obtain rfl := Option.some.inj (here.symm.trans there)
      exact blank
    · exact tiles.blank place d later there uncovered

theorem Tiles.cons (starts : token.position = start) (nonempty : token.position < token.stop whole)
    (within : token.stop whole ≤ whole.length)
    (sliced : whole.extract token.position (token.stop whole) = token.written whole)
    (tiles : Tiles whole (token.stop whole) tokens) : Tiles whole start (token :: tokens) where
  behind := by
    refine List.forall_mem_cons.mpr ⟨starts.ge, fun next member => ?_⟩
    rw [← starts]
    exact nonempty.le.trans (tiles.behind next member)
  apart := List.pairwise_cons.mpr ⟨tiles.behind, tiles.apart⟩
  nonempty := List.forall_mem_cons.mpr ⟨nonempty, tiles.nonempty⟩
  within := List.forall_mem_cons.mpr ⟨within, tiles.within⟩
  sliced := List.forall_mem_cons.mpr ⟨sliced, tiles.sliced⟩
  blank place d later here uncovered := by
    have outside : ¬ token.Covers whole place := fun covers => uncovered ⟨token, List.mem_cons_self, covers⟩
    have stopped : token.stop whole ≤ place := by
      by_contra early
      exact outside ⟨starts ▸ later, Nat.not_le.mp early⟩
    refine tiles.blank place d stopped here ?_
    rintro ⟨next, member, covers⟩
    exact uncovered ⟨next, List.mem_cons_of_mem token member, covers⟩

private theorem symbolKind?_ne_function : symbolKind? c ≠ some .function := by
  intro here
  unfold symbolKind? at here
  split at here <;> cases here

theorem Token.written_of_ne (other : token.kind ≠ .function) : token.written whole = token.text :=
  if_neg fun both => other both.1

/-- A token starts where it is read, and stands for all the characters that it takes. -/
theorem Lexed.written_eq (lexed : Lexed position c cs (some token) more) (here : whole.drop position = c :: cs) :
    token.position = position ∧ token.written whole = c :: cs.take more := by
  cases lexed with
  | number numeral reads =>
    refine ⟨rfl, ?_⟩
    rw [Token.written_of_ne (by simp), ← List.prefix_iff_eq_take.mp (List.takeWhile_prefix isNumeralChar)]
  | @mark kind single =>
    have other : kind ≠ .function := by
      rintro rfl
      exact symbolKind?_ne_function single
    refine ⟨rfl, ?_⟩
    rw [Token.written_of_ne other, List.take_zero]
  | @function f qualifier rest qualified written =>
    refine ⟨rfl, ?_⟩
    rw [take_function written]
    rw [written] at here
    unfold Token.written
    simp only [here, true_and]
    rcases qualified with rfl | rfl
    · -- No function has a name that starts as the qualifier does.
      have unqualified : ¬ functionQualifier <+: f.name ++ rest := by
        rintro ⟨after, same⟩
        have head := congrArg List.head? same
        cases f <;> cases head
      exact if_neg unqualified
    · exact if_pos (List.prefix_append _ _)

/-- Reading goes on where the token ends. -/
private theorem Lexed.stop_eq (lexed : Lexed position c cs (some token) more) (here : whole.drop position = c :: cs) :
    token.stop whole = position + more + 1 := by
  obtain ⟨starts, written⟩ := lexed.written_eq here
  rw [Token.stop, starts, written, List.length_cons, List.length_take_of_le lexed.width]
  rfl

theorem length_of_drop (here : whole.drop position = c :: cs) : position + cs.length + 1 = whole.length := by
  have size := congrArg List.length here
  rw [List.length_drop, List.length_cons] at size
  omega

theorem drop_behind (here : whole.drop position = c :: cs) (more : Nat) :
    whole.drop (position + more + 1) = cs.drop more := by
  rw [Nat.add_assoc, ← List.drop_drop, here, List.drop_succ_cons]

/-- The tokens of what stands in a text from a place on lie there. -/
theorem Lexes.tiles (lexes : Lexes position cs tokens) (here : whole.drop position = cs) :
    Tiles whole position tokens := by
  induction lexes with
  | nil => exact .nil (List.drop_eq_nil_iff.mp here)
  | @step position more c cs token? tokens reads others ih =>
    have lexed := lexed_of_readToken reads
    have tiles := ih (drop_behind here more)
    cases token? with
    | none =>
      cases lexed with
      | blank blank =>
        refine .skip ?_ blank tiles
        rw [← List.head?_drop, here]
        rfl
    | some token =>
      obtain ⟨starts, written⟩ := lexed.written_eq here
      have stops := lexed.stop_eq here
      have size := length_of_drop here
      have width := lexed.width
      rw [← stops] at tiles
      refine .cons starts (by omega) (by omega) ?_ tiles
      have taken : token.stop whole - token.position = more + 1 := by omega
      rw [List.extract_eq_take_drop, taken, starts, here, written, List.take_succ_cons]

end Tiles

section Respaced

variable {position more : Nat} {c : Char} {cs : List Char} {token : Token} {tokens : List Token}

/-- The texts of the tokens with a space between each two. -/
def spaced (tokens : List Token) : List Char := [' '].intercalate (tokens.map Token.text)

/-- The text of the token is read as this token alone, wherever it stands. -/
def Token.ReadsAlone (token : Token) : Prop :=
  ∀ own, ∃ c cs, token.text = c :: cs ∧ readToken own c cs = .ok (some ⟨token.kind, token.text, own⟩, cs.length)

/-- A numeral is as long as it can be, so that no more than its text is read of it. -/
private theorem readsAlone_of_readToken (reads : readToken position c cs = .ok (some token, more)) :
    token.ReadsAlone := by
  intro own
  cases lexed_of_readToken reads with
  | number numeral value =>
    have nameless : isNameless c := Bool.or_eq_true_iff.mpr (.inl numeral)
    have same : (cs.takeWhile isNumeralChar).takeWhile isNumeralChar = cs.takeWhile isNumeralChar :=
      List.takeWhile_eq_self_iff.mpr fun d member => List.mem_takeWhile_imp member
    exact ⟨c, _, rfl, readToken_position own ((readToken_congr nameless fun _ => same).trans reads)⟩
  | mark here =>
    have nameless : isNameless c := Bool.or_eq_true_iff.mpr (.inr (Option.isSome_of_eq_some here))
    have unnumbered : isNumeralChar c → [].takeWhile isNumeralChar = cs.takeWhile isNumeralChar := by
      rw [isNumeralChar_of_symbolKind? here]
      exact (nomatch ·)
    exact ⟨c, [], rfl, readToken_position own ((readToken_congr nameless unnumbered).trans reads)⟩
  | @function f => cases f <;> exact ⟨_, _, rfl, rfl⟩

private theorem Lexes.readsAlone (lexes : Lexes position cs tokens) : ∀ token ∈ tokens, token.ReadsAlone :=
  lexes.forall_of_reads readsAlone_of_readToken

/-- No token goes on behind a space. -/
theorem Parted.space (cs rest : List Char) : Parted cs (' ' :: rest) := .mark (by decide) rfl cs rest

/-- The spaced texts of tokens that are read alone are read as these tokens. -/
private theorem lexes_spaced (alone : ∀ token ∈ tokens, token.ReadsAlone) (own : Nat) :
    ∃ front, Lexes own (spaced tokens) front ∧ Alike front tokens := by
  induction tokens generalizing own with
  | nil => exact ⟨[], .nil, rfl⟩
  | cons token tokens ih =>
    obtain ⟨first, alone⟩ := List.forall_mem_cons.mp alone
    obtain ⟨c, cs, text, reads⟩ := first own
    cases tokens with
    | nil =>
      have whole : spaced [token] = c :: cs := by simp [spaced, text]
      rw [whole]
      refine ⟨_, .step reads ?_, rfl⟩
      rw [List.drop_length]
      exact .nil
    | cons next tokens =>
      have whole : spaced (token :: next :: tokens) = c :: (cs ++ ' ' :: spaced (next :: tokens)) := by
        simp [spaced, text]
      obtain ⟨front, lexes, alike⟩ := ih alone (own + cs.length + 1 + 0 + 1)
      have blank : readToken (own + cs.length + 1) ' ' (spaced (next :: tokens)) = .ok (none, 0) := rfl
      have gap : Lexes (own + cs.length + 1) (' ' :: spaced (next :: tokens)) front := .step blank lexes
      rw [whole]
      refine ⟨_, .step ((readToken_append (.space _ _)).trans reads) (by rwa [List.drop_left]), ?_⟩
      exact (alike_moved own (some token)).append alike

/-- The tokens of a text lie one behind the other in it, none is empty, each stands where it is said to with its own
text, which for a function may be qualified, and only blanks are left out; and the texts of the tokens with spaces
between them have the same tokens. -/
theorem tokenize_lossless (read : tokenize cs = .ok tokens) :
    Tiles cs 0 tokens ∧ ∃ own, tokenize (spaced tokens) = .ok own ∧ Alike own tokens := by
  have lexes := lexes_of_tokensFrom (mapError_eq_ok_iff.mp read)
  obtain ⟨own, again, alike⟩ := lexes_spaced lexes.readsAlone 0
  exact ⟨lexes.tiles List.drop_zero, own, mapError_eq_ok_iff.mpr (tokensFrom_of_lexes again), alike⟩

/-- The tokens of `Math.max(2 , .5)`. -/
def qualifiedMaximum : List Token :=
  [⟨.function, ['m', 'a', 'x'], 0⟩, ⟨.openParen, ['('], 8⟩, ⟨.number, ['2'], 9⟩, ⟨.comma, [','], 11⟩,
    ⟨.number, ['.', '5'], 13⟩, ⟨.closeParen, [')'], 15⟩]

/-- The name of a qualified function starts behind the qualifier, its token in front of it. -/
theorem tokenize_qualifiedMaximum :
    tokenize "Math.max(2 , .5)".toList = .ok qualifiedMaximum ∧ Tiles "Math.max(2 , .5)".toList 0 qualifiedMaximum ∧
      ∃ own, tokenize (spaced qualifiedMaximum) = .ok own ∧ Alike own qualifiedMaximum := by
  have read : tokenize "Math.max(2 , .5)".toList = .ok qualifiedMaximum := eq_ok_of_toOption (by decide +kernel)
  exact ⟨read, tokenize_lossless read⟩

end Respaced

end Formula

end HeroSheet
