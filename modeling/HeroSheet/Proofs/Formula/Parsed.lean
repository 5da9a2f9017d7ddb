import HeroSheet.Proofs.Formula.Phrased
import HeroSheet.Proofs.Formula.Term

namespace HeroSheet

namespace Formula

open PhraseReader

/-- Takes a comma. -/
def comma? (token : Token) : Option Unit := if token.kind = .comma then some () else none

/-- The arguments of a call, one at least. -/
def callArguments (argument : Reader Expr) : Reader (List Expr) :=
  chain (PhraseReader.single argument) comma? fun _ before after => before ++ after

theorem continues_of_argumentsFrom {argument : Reader Expr} {tokens rest : List Token} {args : List Expr}
    {bound} (taken : argumentsFrom argument tokens = .ok ⟨(args, rest), bound⟩) (before : List Expr) :
    Continues (PhraseReader.single argument) comma? (fun _ before after => before ++ after) before tokens
      (before ++ args) rest := by
  fun_induction argumentsFrom argument tokens generalizing args before with
  | case1 =>
    obtain ⟨rfl, rfl⟩ := Prod.mk.inj (congrArg Subtype.val (Except.ok.inj taken))
    rw [List.append_nil]
    exact .stop (by simp)
  | case2 token symbols comma fault refused => cases taken
  | case3 token symbols comma arg after shorter reads fault refused ih => cases taken
  | case4 token symbols comma arg after shorter reads others last bounded later ih =>
    obtain ⟨rfl, rfl⟩ := Prod.mk.inj (congrArg Subtype.val (Except.ok.inj taken))
    have found : comma? token = some () := if_pos comma
    have more := ih later (before ++ [arg])
    rw [List.append_assoc, List.singleton_append] at more
    exact .step found (reads_single_iff.mpr ⟨arg, rfl, shorter, reads⟩) more
  | case5 token symbols other =>
    obtain ⟨rfl, rfl⟩ := Prod.mk.inj (congrArg Subtype.val (Except.ok.inj taken))
    rw [List.append_nil]
    exact .stop (by simpa [comma?] using other)

theorem kind_of_comma? {token : Token} {found : Unit} (comma : comma? token = some found) : token.kind = .comma := by
  by_contra other
  have clash := comma.symm.trans (if_neg other)
  cases clash

private theorem argumentsFrom_of_continues {argument : Reader Expr} {tokens rest : List Token} {before all : List Expr}
    (continues : Continues (PhraseReader.single argument) comma? (fun _ before after => before ++ after) before tokens
      all rest) :
    ∃ args bound, all = before ++ args ∧ argumentsFrom argument tokens = .ok ⟨(args, rest), bound⟩ := by
  induction continues with
  | @stop before rest ends =>
    refine ⟨[], Nat.le_refl _, (List.append_nil before).symm, ?_⟩
    cases rest with
    | nil => rw [argumentsFrom]
    | cons token rest =>
      have other : token.kind ≠ .comma := by
        intro same
        have clash := (if_pos same).symm.trans (ends token rfl)
        cases clash
      rw [argumentsFrom, if_neg other]
  | @step before right all op token tokens after rest found reads more ih =>
    obtain ⟨arg, rfl, shorter, read⟩ := reads_single_iff.mp reads
    obtain ⟨args, bound, same, later⟩ := ih
    have below : rest.length ≤ (token :: tokens).length :=
      Nat.le_succ_of_le (Nat.le_trans bound (Nat.le_of_lt shorter))
    refine ⟨arg :: args, below, by rw [same, List.append_assoc, List.singleton_append], ?_⟩
    rw [argumentsFrom, if_pos (kind_of_comma? found)]
    simp only [read, later]

/-- A numeral, a group or a call, from which a factor may be made. -/
inductive Operand (inner : Reader Expr) : List Token → Expr → List Token → Prop where
  | number {token : Token} {rest : List Token} {value : Binary64} (kind : token.kind = .number)
      (numeral : readReal? token.text = some value) : Operand inner (token :: rest) (.number value) rest
  | group {opening closing : Token} {rest after : List Token} {e : Expr} (opens : opening.kind = .openParen)
      (reads : Reads (sum inner) rest e (closing :: after)) (closes : closing.kind = .closeParen) :
      Operand inner (opening :: rest) e after
  | call {name opening closing : Token} {f : Function} {rest after : List Token} {args : List Expr}
      (kind : name.kind = .function) (named : Function.ofName? name.text = some f)
      (opens : opening.kind = .openParen) (reads : Reads (callArguments (sum inner)) rest args (closing :: after))
      (closes : closing.kind = .closeParen) (accepted : f.accepts args.length) :
      Operand inner (name :: opening :: rest) (.call f args) after

/-- An operand, or a minus sign and a factor. -/
inductive Factored (inner : Reader Expr) : List Token → Expr → List Token → Prop where
  | operand {tokens rest : List Token} {e : Expr} (operand : Operand inner tokens e rest) :
      Factored inner tokens e rest
  | minus {token : Token} {rest after : List Token} {operand : Expr} (kind : token.kind = .operator)
      (minus : token.text = ['-']) (reads : Reads inner rest operand after) :
      Factored inner (token :: rest) (.neg operand) after

theorem reads_expect {kind : TokenKind} {cause : Cause} {tokens rest : List Token} {shorter}
    (taken : expect kind cause tokens = .ok ⟨((), rest), shorter⟩) :
    ∃ token, tokens = token :: rest ∧ token.kind = kind := by
  unfold expect at taken
  split at taken
  · cases taken
  · rename_i token after
    split at taken
    · rename_i same
      obtain rfl := congrArg Prod.snd (congrArg Subtype.val (Except.ok.inj taken))
      exact ⟨token, rfl, same⟩
    · cases taken

private theorem reads_call {argument : Reader Expr} {f : Function} {name : Token} {tokens rest : List Token} {e : Expr}
    (reads : Reads (call argument f name) tokens e rest) :
    ∃ opening closing inside args, tokens = opening :: inside ∧ opening.kind = .openParen ∧
      Reads (callArguments argument) inside args (closing :: rest) ∧ closing.kind = .closeParen ∧
        f.accepts args.length ∧ e = .call f args := by
  obtain ⟨shorter, taken⟩ := reads
  unfold call at taken
  split at taken
  · cases taken
  · rename_i inside opened expected
    obtain ⟨opening, rfl, opens⟩ := reads_expect expected
    split at taken
    · cases taken
    · rename_i first after behind read
      split at taken
      · cases taken
      · rename_i others last bound later
        split at taken
        · cases taken
        · rename_i left closed expected
          obtain ⟨closing, rfl, closes⟩ := reads_expect expected
          split at taken
          · rename_i accepted
            obtain ⟨rfl, rfl⟩ := Prod.mk.inj (congrArg Subtype.val (Except.ok.inj taken))
            refine ⟨opening, closing, inside, first :: others, rfl, opens, ?_, closes, accepted, rfl⟩
            exact reads_chain_iff.mpr ⟨[first], after, reads_single_iff.mpr ⟨first, rfl, behind, read⟩,
              continues_of_argumentsFrom later [first]⟩
          · cases taken

theorem factored_of_reads {inner : Reader Expr} {tokens rest : List Token} {e : Expr}
    (reads : Reads (primary inner) tokens e rest) : Factored inner tokens e rest := by
  obtain ⟨shorter, taken⟩ := reads
  unfold primary at taken
  split at taken
  · cases taken
  · rename_i token after
    split at taken
    · rename_i kind
      split at taken
      · cases taken
      · rename_i value numeral
        obtain ⟨rfl, rfl⟩ := Prod.mk.inj (congrArg Subtype.val (Except.ok.inj taken))
        exact .operand (.number kind numeral)
    · rename_i kind
      split at taken
      · rename_i minus
        split at taken
        · cases taken
        · rename_i operand last behind reads
          obtain ⟨rfl, rfl⟩ := Prod.mk.inj (congrArg Subtype.val (Except.ok.inj taken))
          exact .minus kind minus ⟨behind, reads⟩
      · cases taken
    · rename_i opens
      split at taken
      · cases taken
      · rename_i content last behind reads
        split at taken
        · cases taken
        · rename_i left closed expected
          obtain ⟨rfl, rfl⟩ := Prod.mk.inj (congrArg Subtype.val (Except.ok.inj taken))
          obtain ⟨closing, rfl, closes⟩ := reads_expect expected
          exact .operand (.group opens ⟨behind, reads⟩ closes)
    · rename_i kind
      split at taken
      · cases taken
      · rename_i f named
        split at taken
        · cases taken
        · rename_i read behind reads
          obtain rfl := congrArg Subtype.val (Except.ok.inj taken)
          obtain ⟨opening, closing, inside, args, rfl, opens, arguments, closes, accepted, rfl⟩ :=
            reads_call ⟨behind, reads⟩
          exact .operand (.call kind named opens arguments closes accepted)
    · cases taken

theorem expect_of_kind {kind : TokenKind} {cause : Cause} {token : Token} (same : token.kind = kind)
    (rest : List Token) : expect kind cause (token :: rest) = .ok ⟨((), rest), Nat.lt_succ_self _⟩ :=
  if_pos same

private theorem reads_call_of_arguments {argument : Reader Expr} {f : Function} {opening closing : Token}
    {inside rest : List Token} {args : List Expr} (name : Token) (opens : opening.kind = .openParen)
    (reads : Reads (callArguments argument) inside args (closing :: rest)) (closes : closing.kind = .closeParen)
    (accepted : f.accepts args.length) : Reads (call argument f name) (opening :: inside) (.call f args) rest := by
  have within : rest.length + 1 < inside.length := reads.shorter
  obtain ⟨many, after, one, continues⟩ := reads_chain_iff.mp reads
  obtain ⟨first, rfl, behind, read⟩ := reads_single_iff.mp one
  obtain ⟨others, bound, rfl, later⟩ := argumentsFrom_of_continues continues
  rw [List.singleton_append] at accepted ⊢
  refine ⟨Nat.lt_succ_of_lt (Nat.lt_of_succ_lt within), ?_⟩
  unfold call
  simp only [expect_of_kind opens, read, later, expect_of_kind closes, accepted, if_true]

/-- A factor is read exactly when it is an operand or a minus sign and a factor. -/
theorem reads_primary_iff {inner : Reader Expr} {tokens rest : List Token} {e : Expr} :
    Reads (primary inner) tokens e rest ↔ Factored inner tokens e rest := by
  constructor
  · exact factored_of_reads
  · intro factored
    cases factored with
    | operand operand =>
      cases operand with
      | number kind numeral => exact ⟨Nat.lt_succ_self _, by simp only [primary, kind, numeral]⟩
      | @group opening closing inside _ _ opens reads closes =>
        have within : rest.length + 1 < inside.length := reads.shorter
        obtain ⟨shorter, content⟩ := reads
        refine ⟨Nat.lt_succ_of_lt (Nat.lt_of_succ_lt within), ?_⟩
        simp only [primary, opens, content, expect_of_kind closes]
      | @call name _ _ _ _ _ _ kind named opens reads closes accepted =>
        obtain ⟨shorter, content⟩ := reads_call_of_arguments name opens reads closes accepted
        exact ⟨Nat.lt_succ_of_lt shorter, by simp only [primary, kind, named, content]⟩
    | minus kind minus reads =>
      obtain ⟨shorter, content⟩ := reads
      exact ⟨Nat.lt_succ_of_lt shorter, by simp only [primary, kind, minus, content, if_true]⟩

section Separators

variable {token : Token}

private theorem parens_of_addOperator? {op : Operator} (found : addOperator? token = some op) :
    parens token.text = [] := by
  unfold addOperator? at found
  split at found
  · rename_i text
    rw [text]
    rfl
  · split at found
    · rename_i text
      rw [text]
      rfl
    · cases found

private theorem parens_of_mulOperator? {op : Operator} (found : mulOperator? token = some op) :
    parens token.text = [] := by
  unfold mulOperator? at found
  split at found
  · rename_i text
    rw [text]
    rfl
  · split at found
    · rename_i text
      rw [text]
      rfl
    · cases found

private theorem Token.Sound.parens_of_comma? (sound : token.Sound) (found : comma? token = some ()) :
    parens token.text = [] := by
  unfold comma? at found
  split at found
  · rename_i kind
    obtain ⟨symbol, means⟩ := sound
    cases means with
    | comma => rfl
    | _ => cases kind
  · cases found

end Separators

/-- The tokens that are taken make up a phrase. -/
def TakesPhrases {α : Type} (reader : Reader α) : Prop :=
  ∀ {tokens read rest}, Reads reader tokens read rest → ∃ used, tokens = used ++ rest ∧ Shaped used

theorem takesPhrases_sum {inner : Reader Expr} (takes : TakesPhrases inner) : TakesPhrases (sum inner) :=
  Reads.chain_consumes
    (Reads.chain_consumes takes fun first found second => first.join (fun _ => parens_of_mulOperator? found) second)
    fun first found second => first.join (fun _ => parens_of_addOperator? found) second

private theorem takesPhrases_callArguments {argument : Reader Expr} (takes : TakesPhrases argument) :
    TakesPhrases (callArguments argument) := by
  refine Reads.chain_consumes (fun reads => ?_) fun first found second =>
    first.join (fun sound => sound.parens_of_comma? found) second
  obtain ⟨arg, rfl, read⟩ := reads_single_iff.mp reads
  exact takes read

/-- A group or call takes what stands between its own parentheses. -/
theorem Operand.enclosed {inner : Reader Expr} {tokens rest : List Token} {e : Expr}
    (operand : Operand inner tokens e rest) (takes : TakesPhrases inner) :
    (∃ token, tokens = token :: rest ∧ token.kind = .number) ∨
      ∃ front opening content closing, tokens = front ++ opening :: (content ++ closing :: rest) ∧
        (front = [] ∨ ∃ name, front = [name] ∧ name.kind = .function) ∧ opening.kind = .openParen ∧
          Shaped content ∧ closing.kind = .closeParen := by
  cases operand with
  | @number token _ value kind numeral => exact Or.inl ⟨token, rfl, kind⟩
  | @group opening closing _ _ _ opens reads closes =>
    obtain ⟨content, rfl, shaped⟩ := takesPhrases_sum takes reads
    exact Or.inr ⟨[], opening, content, closing, rfl, Or.inl rfl, opens, shaped, closes⟩
  | @call name opening closing f _ _ args kind named opens reads closes accepted =>
    obtain ⟨content, rfl, shaped⟩ := takesPhrases_callArguments (takesPhrases_sum takes) reads
    exact Or.inr ⟨[name], opening, content, closing, rfl, Or.inr ⟨name, rfl, kind⟩, opens, shaped, closes⟩

theorem Operand.takes {inner : Reader Expr} {tokens rest : List Token} {e : Expr}
    (operand : Operand inner tokens e rest) (takes : TakesPhrases inner) :
    ∃ used, tokens = used ++ rest ∧ Shaped used := by
  rcases operand.enclosed takes with ⟨token, rfl, kind⟩ |
    ⟨front, opening, content, closing, rfl, named, opens, shaped, closes⟩
  · refine ⟨[token], rfl, fun sound => ?_⟩
    have unmarked := (sound token (by simp)).unmarked (Or.inl kind)
    exact .single unmarked.1 unmarked.2
  · have group := shaped.wrapped opens closes
    rcases named with rfl | ⟨name, rfl, kind⟩
    · exact ⟨opening :: (content ++ [closing]), by simp, group⟩
    · refine ⟨name :: opening :: (content ++ [closing]), by simp, fun sound => ?_⟩
      have unmarked := (sound name (by simp)).unmarked (Or.inr kind)
      have phrased := group fun t member => sound t (List.mem_cons_of_mem name member)
      exact phrased.behind unmarked.1 unmarked.2

theorem takesPhrases_primary {inner : Reader Expr} (takes : TakesPhrases inner) :
    TakesPhrases (primary inner) := by
  intro tokens e rest reads
  cases factored_of_reads reads with
  | operand operand => exact operand.takes takes
  | @minus token _ _ _ kind minus reads =>
    obtain ⟨used, rfl, shaped⟩ := takes reads
    refine ⟨token :: used, rfl, fun sound => ?_⟩
    have phrased := shaped fun t member => sound t (List.mem_cons_of_mem token member)
    exact phrased.behind (by simp [minus, parens]) (by simp [Token.IsSlash, minus])

theorem takesPhrases_factor (room : Nat) : TakesPhrases (factor room) := by
  induction room with
  | zero =>
    rintro tokens e rest ⟨_, impossible⟩
    cases impossible
  | succ room ih => exact takesPhrases_primary ih

theorem TakesPhrases.suffix {α : Type} {reader : Reader α} (takes : TakesPhrases reader)
    {tokens rest : List Token} {read : α} (reads : Reads reader tokens read rest) : rest <:+ tokens := by
  obtain ⟨used, eq, _⟩ := takes reads
  exact ⟨used, eq.symm⟩

end Formula

end HeroSheet
