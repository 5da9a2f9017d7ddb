import HeroSheet.Proofs.Formula.Enclosed
import HeroSheet.Proofs.Formula.Refused

/-!
Arithmetic text without its blanks. Where no blank keeps two numerals apart, the tokens of a text are those of the
text without its blanks, but for where they stand; and what the grammar derives from tokens does not depend on that.
So a text that is refused is refused without its blanks as well.
-/

namespace HeroSheet

namespace Formula

open PhraseReader

section Alike

/-- What a token is, wherever it stands. -/
def Token.shape (token : Token) : TokenKind × List Char := (token.kind, token.text)

/-- The same tokens, wherever they stand. -/
def Alike (own tokens : List Token) : Prop := own.map Token.shape = tokens.map Token.shape

/-- What is derived from tokens is derived from the same tokens elsewhere. -/
def Placeless {α : Type} (derivation : Derivation α) : Prop :=
  ∀ ⦃own tokens : List Token⦄ ⦃a : α⦄, Alike own tokens → derivation tokens a → derivation own a

variable {α ω : Type} {own tokens : List Token} {token : Token}

theorem Alike.of_singleton (alike : Alike own [token]) :
    ∃ here, own = [here] ∧ here.kind = token.kind ∧ here.text = token.text := by
  obtain ⟨here, rfl, same⟩ := List.map_eq_singleton_iff.mp alike
  exact ⟨here, rfl, (Prod.mk.inj same).1, (Prod.mk.inj same).2⟩

theorem Alike.of_cons (alike : Alike own (token :: tokens)) :
    ∃ here rest, own = here :: rest ∧ (here.kind = token.kind ∧ here.text = token.text) ∧ Alike rest tokens := by
  obtain ⟨here, rest, rfl, same, later⟩ := List.map_eq_cons_iff.mp alike
  exact ⟨here, rest, rfl, Prod.mk.inj same, later⟩

theorem Alike.of_append {before after : List Token} (alike : Alike own (before ++ after)) :
    ∃ front back, own = front ++ back ∧ Alike front before ∧ Alike back after := by
  unfold Alike at alike
  rw [List.map_append] at alike
  exact List.map_eq_append_iff.mp alike

theorem alike_moved (own : Nat) (token? : Option Token) :
    Alike (token?.map fun token => ⟨token.kind, token.text, own⟩).toList token?.toList := by
  cases token? <;> rfl

theorem Alike.append {front back before after : List Token} (first : Alike front before) (later : Alike back after) :
    Alike (front ++ back) (before ++ after) := by
  unfold Alike at first later ⊢
  rw [List.map_append, List.map_append, first, later]

/-- The operators of a chain are told apart by their texts or kinds. -/
theorem Placeless.chained {operand : Derivation α} {operator? : Token → Option ω} {combine : ω → α → α → α}
    (operands : Placeless operand)
    (same : ∀ {here token : Token}, here.kind = token.kind ∧ here.text = token.text → operator? here = operator? token) :
    Placeless (Chained operand operator? combine) := by
  intro own tokens a alike chained
  induction chained generalizing own with
  | one shaped => exact .one (operands alike shaped)
  | more start found shaped ih =>
    obtain ⟨front, back, rfl, before, behind⟩ := alike.of_append
    obtain ⟨here, after, rfl, operator, later⟩ := behind.of_cons
    exact .more (ih before) ((same operator).trans found) (operands later shaped)

theorem Placeless.alone {operand : Derivation α} (operands : Placeless operand) : Placeless (Alone operand) := by
  rintro own tokens _ alike ⟨a, rfl, shaped⟩
  exact ⟨a, rfl, operands alike shaped⟩

variable {inner : Derivation Expr}

theorem Placeless.sum (factors : Placeless inner) : Placeless (IsSum inner) :=
  (factors.chained fun same => by rw [mulOperator?, mulOperator?, same.2]).chained fun same => by
    rw [addOperator?, addOperator?, same.2]

theorem Placeless.arguments (factors : Placeless inner) : Placeless (AreArguments inner) :=
  factors.sum.alone.chained fun same => by rw [comma?, comma?, same.1]

theorem Placeless.factorOf (factors : Placeless inner) : Placeless (FactorOf inner) := by
  intro own tokens e alike factor
  cases factor with
  | number kind numeral =>
    obtain ⟨here, rfl, same, text⟩ := alike.of_singleton
    exact .number (same.trans kind) (text ▸ numeral)
  | call kind named opens content closes accepted =>
    obtain ⟨name, behind, rfl, ⟨sameKind, sameText⟩, alike⟩ := alike.of_cons
    obtain ⟨opening, rest, rfl, ⟨sameOpening, _⟩, alike⟩ := alike.of_cons
    obtain ⟨inside, last, rfl, arguments, ending⟩ := alike.of_append
    obtain ⟨closing, rfl, sameClosing, _⟩ := ending.of_singleton
    exact .call (sameKind.trans kind) (sameText ▸ named) (sameOpening.trans opens)
      (factors.arguments arguments content) (sameClosing.trans closes) accepted
  | group opens content closes =>
    obtain ⟨opening, rest, rfl, ⟨sameOpening, _⟩, alike⟩ := alike.of_cons
    obtain ⟨inside, last, rfl, sum, ending⟩ := alike.of_append
    obtain ⟨closing, rfl, sameClosing, _⟩ := ending.of_singleton
    exact .group (sameOpening.trans opens) (factors.sum sum content) (sameClosing.trans closes)
  | minus kind text content =>
    obtain ⟨here, rest, rfl, ⟨sameKind, sameText⟩, later⟩ := alike.of_cons
    exact .minus (sameKind.trans kind) (sameText.trans text) (factors later content)

private theorem placeless_isFactor (depth : Nat) : Placeless (IsFactor depth) := by
  induction depth with
  | zero => exact fun _ _ _ _ impossible => impossible.elim
  | succ depth ih => exact ih.factorOf

/-- Tokens have the same tree elsewhere. -/
theorem Alike.parse (alike : Alike own tokens) (sound : ∀ token ∈ tokens, token.Sound)
    (ownSound : ∀ token ∈ own, token.Sound) {e : Expr} (parsed : parse tokens = .ok e) : parse own = .ok e := by
  have count : own.length = tokens.length := by
    simpa using congrArg List.length alike
  obtain ⟨present, few, derives⟩ := (parse_eq_ok_iff sound).mp parsed
  exact (parse_eq_ok_iff ownSound).mpr
    ⟨count ▸ present, count ▸ few, (placeless_isFactor maxDepth).sum alike derives⟩

end Alike

section Elsewhere

variable {position : Nat} {cs rest : List Char} {tokens more : List Token}

/-- The tokens of a text are read elsewhere too, and in front of more text. -/
theorem Lexes.append (lexes : Lexes position cs tokens) (parted : Parted cs rest) {own : Nat}
    (others : Lexes (own + cs.length) rest more) :
    ∃ front, Lexes own (cs ++ rest) (front ++ more) ∧ Alike front tokens := by
  induction lexes generalizing own with
  | nil => exact ⟨[], others, rfl⟩
  | @step position taken c cs token? tokens reads later ih =>
    have width := (lexed_of_readToken reads).width
    have place : own + (c :: cs).length = own + taken + 1 + (cs.drop taken).length := by
      rw [List.length_cons, List.length_drop]
      omega
    rw [place] at others
    have behind := parted.suffix ((List.drop_suffix taken cs).trans (List.suffix_cons c cs))
    obtain ⟨front, lexes, alike⟩ := ih behind others
    rw [← List.drop_append_of_le_length width] at lexes
    have first := readToken_position own ((readToken_append parted).trans reads)
    refine ⟨_ ++ front, ?_, (alike_moved own token?).append alike⟩
    rw [List.cons_append, List.append_assoc]
    exact .step first lexes

end Elsewhere

section Blanks

variable {c : Char} {cs ds : List Char} {position own more : Nat} {tokens : List Token} {token? : Option Token}

/-- A character of a numeral stands in front of the text, and blanks keep it apart from another one. -/
def joinsNumerals : List Char → Bool
  | c :: behind => isNumeralChar c && behind.head?.any isBlank && (withoutBlanks behind).head?.any isNumeralChar
  | [] => false

/-- No blank stands between two characters of numerals. -/
def NumeralsApart (cs : List Char) : Prop := ∀ s, s <:+ cs → joinsNumerals s = false

instance (cs : List Char) : Decidable (NumeralsApart cs) :=
  decidable_of_iff (∀ s ∈ cs.tails, joinsNumerals s = false) (by simp only [List.mem_tails, NumeralsApart])

theorem NumeralsApart.suffix (apart : NumeralsApart cs) (suffix : ds <:+ cs) : NumeralsApart ds :=
  fun s inner => apart s (inner.trans suffix)

theorem not_isBlank_of_isNumeralChar (numeral : isNumeralChar c) : isBlank c = false := by
  rcases Bool.or_eq_true_iff.mp numeral with digit | point
  · rcases of_isAnyDigit (p := fun d => !isBlank d) digit (by decide +kernel) with decimal | solid
    · exact not_isBlank_of_isDecimal decimal
    · simpa using solid
  · rw [beq_iff_eq.mp point]
    rfl

private theorem withoutBlanks_cons_of_blank (blank : isBlank c) : withoutBlanks (c :: cs) = withoutBlanks cs :=
  List.filter_cons_of_neg (by simp [blank])

theorem withoutBlanks_cons_of_solid (solid : isBlank c = false) : withoutBlanks (c :: cs) = c :: withoutBlanks cs :=
  List.filter_cons_of_pos (by simp [solid])

private theorem takeWhile_withoutBlanks (apart : NumeralsApart (c :: cs)) (numeral : isNumeralChar c) :
    (withoutBlanks cs).takeWhile isNumeralChar = cs.takeWhile isNumeralChar := by
  induction cs generalizing c with
  | nil => rfl
  | cons d cs ih =>
    by_cases next : isNumeralChar d
    · rw [withoutBlanks_cons_of_solid (not_isBlank_of_isNumeralChar next), List.takeWhile_cons_of_pos next,
        List.takeWhile_cons_of_pos next, ih (apart.suffix (List.suffix_cons c _)) next]
    · rw [List.takeWhile_cons_of_neg next]
      cases left : withoutBlanks (d :: cs) with
      | nil => rfl
      | cons e rest =>
        refine List.takeWhile_cons_of_neg fun later => ?_
        have solid : isBlank d = false := by
          have joins := apart (c :: d :: cs) (List.suffix_refl _)
          simpa [joinsNumerals, numeral, left, later] using joins
        rw [withoutBlanks_cons_of_solid solid] at left
        obtain ⟨rfl, _⟩ := List.cons.inj left
        exact next later

private theorem drop_withoutBlanks (cs : List Char) :
    (withoutBlanks cs).drop (cs.takeWhile isNumeralChar).length =
      withoutBlanks (cs.drop (cs.takeWhile isNumeralChar).length) := by
  have kept : withoutBlanks (cs.takeWhile isNumeralChar) = cs.takeWhile isNumeralChar :=
    List.filter_eq_self.mpr fun d member => by
      rw [not_isBlank_of_isNumeralChar (List.mem_takeWhile_imp member)]
      rfl
  have parts : withoutBlanks (cs.takeWhile isNumeralChar ++ cs.dropWhile isNumeralChar) =
      withoutBlanks (cs.takeWhile isNumeralChar) ++ withoutBlanks (cs.dropWhile isNumeralChar) := List.filter_append ..
  have behind : (cs.takeWhile isNumeralChar ++ cs.dropWhile isNumeralChar).drop (cs.takeWhile isNumeralChar).length =
      cs.dropWhile isNumeralChar := List.drop_left
  rw [kept, List.takeWhile_append_dropWhile] at parts
  rw [List.takeWhile_append_dropWhile] at behind
  rw [behind, parts, List.drop_left]

/-- What starts with neither a blank nor a letter is a numeral or a character by itself. -/
theorem Lexed.isNameless (lexed : Lexed position c cs token? more) (solid : isBlank c = false)
    (unnamed : isNameStart c = false) :
    isNameless c ∧ more = if isNumeralChar c then (cs.takeWhile isNumeralChar).length else 0 := by
  cases lexed with
  | blank blank =>
    rw [solid] at blank
    cases blank
  | number numeral reads => simp only [Formula.isNameless, numeral, Bool.true_or, if_true, and_self]
  | mark here =>
    simp only [Formula.isNameless, here, isNumeralChar_of_symbolKind? here, Option.isSome_some, Bool.or_true,
      Bool.false_eq_true, if_false, and_self]
  | @function f qualifier rest qualified written =>
    rcases qualified with rfl | rfl
    · cases f <;> obtain rfl := (List.cons.inj written).1 <;> cases unnamed
    · obtain rfl := (List.cons.inj written).1
      cases unnamed

theorem readToken_congr (nameless : isNameless c)
    (same : isNumeralChar c → ds.takeWhile isNumeralChar = cs.takeWhile isNumeralChar) :
    readToken position c ds = readToken position c cs := by
  unfold readToken
  by_cases numeral : isNumeralChar c
  · simp only [same numeral, numeral, if_true]
  · obtain ⟨kind, here⟩ := Option.isSome_iff_exists.mp ((Bool.or_eq_true_iff.mp nameless).resolve_left numeral)
    simp only [if_neg numeral, here]

/-- The tokens of a text without its blanks are those of the text, but for where they stand. -/
theorem Lexes.spaced (letterless : Letterless cs) (apart : NumeralsApart cs)
    (lexes : Lexes position (withoutBlanks cs) tokens) (own : Nat) :
    ∃ spaced, Lexes own cs spaced ∧ Alike spaced tokens := by
  induction size : cs.length using Nat.strong_induction_on generalizing cs position own tokens with
  | h n ih =>
    subst size
    cases cs with
    | nil =>
      cases lexes
      exact ⟨[], .nil, rfl⟩
    | cons c cs =>
      obtain ⟨unnamed, letterless⟩ := List.forall_mem_cons.mp letterless
      have behind := apart.suffix (List.suffix_cons c cs)
      by_cases blank : isBlank c
      · rw [withoutBlanks_cons_of_blank blank] at lexes
        obtain ⟨spaced, later, alike⟩ := ih cs.length (Nat.lt_succ_self _) letterless behind lexes (own + 0 + 1) rfl
        have first : readToken own c cs = .ok (none, 0) := if_pos blank
        exact ⟨spaced, .step first later, alike⟩
      · have solid : isBlank c = false := by simpa using blank
        rw [withoutBlanks_cons_of_solid solid] at lexes
        obtain _ | @⟨_, more, _, _, token?, tokens, reads, others⟩ := lexes
        obtain ⟨nameless, width⟩ := (lexed_of_readToken reads).isNameless solid unnamed
        have same := fun numeral => takeWhile_withoutBlanks apart numeral
        have rest : (withoutBlanks cs).drop more = withoutBlanks (cs.drop more) := by
          rw [width]
          split
          · rename_i numeral
            rw [same numeral, drop_withoutBlanks]
          · rfl
        rw [rest] at others
        have first := readToken_position own ((readToken_congr nameless same).symm.trans reads)
        have suffix := List.drop_suffix more cs
        obtain ⟨spaced, later, alike⟩ := ih (cs.drop more).length (Nat.lt_succ_of_le suffix.length_le)
          (fun d member => letterless d (suffix.subset member)) (behind.suffix suffix) others (own + more + 1) rfl
        exact ⟨_, .step first later, (alike_moved own token?).append alike⟩

/-- A text that is refused is refused without its blanks. -/
theorem evaluate_of_withoutBlanks (letterless : Letterless cs) (apart : NumeralsApart cs) {x : Binary64}
    (ok : evaluate (withoutBlanks cs) = .ok x) : evaluate cs = .ok x := by
  obtain ⟨tokens, e, lexes, parsed, value⟩ := evaluate_eq_ok_iff.mp ok
  obtain ⟨spaced, own, alike⟩ := lexes.spaced letterless apart 0
  exact evaluate_eq_ok_iff.mpr ⟨spaced, e, own, alike.parse lexes.sound own.sound parsed, value⟩

end Blanks

end Formula

end HeroSheet
