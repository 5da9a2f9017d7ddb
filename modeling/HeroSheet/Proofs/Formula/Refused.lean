import HeroSheet.Proofs.Formula.Evaluated
import HeroSheet.Proofs.Formula.Grammar

namespace HeroSheet

namespace Formula

open PhraseReader

/-- The fault has a cause, and perhaps a place, which is one of some. -/
def Fault.HasCause (place : Nat → Prop) (fault : Fault) : Prop :=
  ∃ cause position, fault = .malformed cause position none none ∧ ∀ p ∈ position, place p

/-- The token is one of a text, and stands at one of some places. -/
def Token.SoundAt (place : Nat → Prop) (token : Token) : Prop := token.Sound ∧ place token.position

section Cause

variable {place : Nat → Prop}

theorem Fault.hasCause_nowhere (cause : Cause) : (Fault.nowhere cause).HasCause place :=
  ⟨cause, none, rfl, by simp⟩

theorem Fault.hasCause_located {position : Nat} (here : place position) (cause : Cause) :
    (Fault.located position cause).HasCause place :=
  ⟨cause, some position, rfl, by simpa using here⟩

private theorem Fault.hasCause_atToken {token : Option Token} (here : ∀ own ∈ token, place own.position)
    (cause : Cause) :
    (Fault.atToken token cause).HasCause place := by
  cases token with
  | none => exact hasCause_nowhere cause
  | some own => exact hasCause_located (here own rfl) cause

end Cause

/-- A token of a text has the number, and names the function, that its kind asks for. -/
theorem Token.Sound.legible {token : Token} (sound : token.Sound) :
    (token.kind = .number → readReal? token.text ≠ none) ∧
      (token.kind = .function → Function.ofName? token.text ≠ none) := by
  obtain ⟨symbol, means⟩ := sound
  have known : ∀ f : Function, Function.ofName? f.name ≠ none := by
    intro f
    cases f <;> decide
  cases means with
  | number position chars reads => exact ⟨fun _ => by simp [reads], (nomatch ·)⟩
  | function f position => exact ⟨(nomatch ·), fun _ => known f⟩
  | _ => exact ⟨(nomatch ·), (nomatch ·)⟩

section Faults

variable {place : Nat → Prop} {inner argument : Reader Expr} {stops : Token → Prop} {tokens : List Token}
  {fault : Fault}

theorem hasCause_of_expect {kind : TokenKind} {cause : Cause} (sound : ∀ token ∈ tokens, token.SoundAt place)
    (refused : expect kind cause tokens = .error fault) : fault.HasCause place := by
  unfold expect at refused
  split at refused
  · cases refused
    exact Fault.hasCause_nowhere cause
  · split at refused
    · cases refused
    · cases refused
      exact Fault.hasCause_located (sound _ List.mem_cons_self).2 cause

private theorem hasCause_of_argumentsFrom (faults : FaultsAre (Token.SoundAt place) argument (Fault.HasCause place))
    {shape : Derivation Expr} (recognises : Recognises (Token.SoundAt place) argument shape stops)
    (sound : ∀ token ∈ tokens, token.SoundAt place) (refused : argumentsFrom argument tokens = .error fault) :
    fault.HasCause place := by
  fun_induction argumentsFrom argument tokens with
  | case1 => cases refused
  | case2 token rest comma own refusal =>
    obtain rfl := Except.error.inj refused
    exact faults (List.forall_mem_cons.mp sound).2 refusal
  | case3 token rest comma arg after shorter reads own refusal ih =>
    obtain rfl := Except.error.inj refused
    have behind := recognises.sound (List.forall_mem_cons.mp sound).2 ⟨shorter, reads⟩
    exact ih behind refusal
  | case4 token rest comma arg after shorter reads others last bounded later ih => cases refused
  | case5 token rest other => cases refused

private theorem hasCause_of_call (faults : FaultsAre (Token.SoundAt place) argument (Fault.HasCause place))
    {shape : Derivation Expr} (recognises : Recognises (Token.SoundAt place) argument shape stops) {f : Function}
    {name : Token} (named : place name.position) (sound : ∀ token ∈ tokens, token.SoundAt place)
    (refused : call argument f name tokens = .error fault) : fault.HasCause place := by
  unfold call at refused
  split at refused
  · rename_i own refusal
    obtain rfl := Except.error.inj refused
    exact hasCause_of_expect sound refusal
  · rename_i inside opened expected
    obtain ⟨opening, rfl, _⟩ := reads_expect expected
    have behind := (List.forall_mem_cons.mp sound).2
    split at refused
    · rename_i own refusal
      obtain rfl := Except.error.inj refused
      exact faults behind refusal
    · rename_i first after shorter reads
      have after := recognises.sound behind ⟨shorter, reads⟩
      split at refused
      · rename_i own refusal
        obtain rfl := Except.error.inj refused
        exact hasCause_of_argumentsFrom faults recognises after refusal
      · rename_i others last bound later
        split at refused
        · rename_i own refusal
          obtain rfl := Except.error.inj refused
          exact hasCause_of_expect ((continues_of_argumentsFrom later []).sound recognises.single after) refusal
        · split at refused
          · cases refused
          · cases refused
            exact Fault.hasCause_located named _

theorem faultsAre_sum {factor : Derivation Expr} (recognises : Recognises Token.Sound inner factor fun _ => True)
    (faults : FaultsAre (Token.SoundAt place) inner (Fault.HasCause place)) :
    FaultsAre (Token.SoundAt place) (sum inner) (Fault.HasCause place) :=
  (faults.chain (recognises.weaken And.left)).chain ((recognises.chain fun _ _ => trivial).weaken And.left)

/-- The faults of a factor have causes, when those of the factors inside of it have. -/
theorem faultsAre_primary {factor : Derivation Expr} (recognises : Recognises Token.Sound inner factor fun _ => True)
    (faults : FaultsAre (Token.SoundAt place) inner (Fault.HasCause place)) :
    FaultsAre (Token.SoundAt place) (primary inner) (Fault.HasCause place) := by
  intro tokens fault sound refused
  have sums := faultsAre_sum recognises faults
  have read : Recognises (Token.SoundAt place) (sum inner) _ _ := (recognises_sum recognises).weaken And.left
  unfold primary at refused
  split at refused
  · cases refused
    exact Fault.hasCause_nowhere _
  · rename_i token rest
    obtain ⟨⟨first, here⟩, behind⟩ := List.forall_mem_cons.mp sound
    obtain ⟨numeral, named⟩ := first.legible
    split at refused
    · rename_i kind
      split at refused
      · rename_i none
        exact absurd none (numeral kind)
      · cases refused
    · split at refused
      · split at refused
        · rename_i own refusal
          obtain rfl := Except.error.inj refused
          exact faults behind refusal
        · cases refused
      · cases refused
        exact Fault.hasCause_located here _
    · split at refused
      · rename_i own refusal
        obtain rfl := Except.error.inj refused
        exact sums behind refusal
      · rename_i reads
        split at refused
        · rename_i own refusal
          obtain rfl := Except.error.inj refused
          exact hasCause_of_expect (read.sound behind ⟨_, reads⟩) refusal
        · cases refused
    · rename_i kind
      split at refused
      · rename_i none
        exact absurd none (named kind)
      · split at refused
        · rename_i own refusal
          obtain rfl := Except.error.inj refused
          exact hasCause_of_call sums read here behind refusal
        · cases refused
    · cases refused
      exact Fault.hasCause_located here _

private theorem faultsAre_factor (depth : Nat) :
    FaultsAre (Token.SoundAt place) (factor depth) (Fault.HasCause place) := by
  induction depth with
  | zero =>
    intro tokens fault sound refused
    cases refused
    exact Fault.hasCause_atToken (fun own first => (sound own (List.mem_of_mem_head? first)).2) _
  | succ depth ih => exact faultsAre_primary (recognises_factor depth) ih

end Faults

section Parsed

variable {tokens : List Token}

/-- The tree that is read is the one that the grammar derives. -/
theorem parse_eq_ok_iff (sound : ∀ token ∈ tokens, token.Sound) {e : Expr} :
    parse tokens = .ok e ↔ 1 ≤ tokens.length ∧ tokens.length ≤ maxTokens ∧ Derives maxDepth tokens e := by
  rw [← reads_whole_iff_derives sound, parse_eq_ok_iff_reads]
  constructor
  · rintro ⟨few, reads⟩
    exact ⟨reads.shorter, few, reads⟩
  · rintro ⟨_, few, reads⟩
    exact ⟨few, reads⟩

/-- Tokens that are refused are refused with a cause, and at no other place than that of a token. -/
theorem hasCause_of_parse {place : Nat → Prop} (sound : ∀ token ∈ tokens, token.SoundAt place) {fault : Fault}
    (refused : parse tokens = .error fault) : fault.HasCause place := by
  unfold parse at refused
  split at refused
  · cases refused
    exact Fault.hasCause_nowhere _
  · split at refused
    · cases refused
      exact Fault.hasCause_nowhere _
    · split at refused
      · rename_i own refusal
        obtain rfl := Except.error.inj refused
        exact faultsAre_sum (recognises_factor maxDepth) (faultsAre_factor maxDepth) sound refusal
      · cases refused
      · rename_i reads
        cases refused
        have read : Recognises (Token.SoundAt place) (sum (factor maxDepth)) _ _ :=
          (recognises_sum (recognises_factor maxDepth)).weaken And.left
        exact Fault.hasCause_located (read.sound sound ⟨_, reads⟩ _ List.mem_cons_self).2 _

/-- Two trees of the same tokens are one tree, however deep factors may nest. -/
theorem Derives.unique (sound : ∀ token ∈ tokens, token.Sound) {depth deeper : Nat} {e own : Expr}
    (derives : Derives depth tokens e) (again : Derives deeper tokens own) : e = own := by
  have first := (reads_whole_iff_derives sound).mpr (derives.mono (Nat.le_max_left depth deeper))
  have second := (reads_whole_iff_derives sound).mpr (again.mono (Nat.le_max_right depth deeper))
  exact (first.unique second).1

private theorem sound_of_tokenize {cs : List Char} (read : tokenize cs = .ok tokens) : ∀ token ∈ tokens, token.Sound :=
  (lexes_of_tokensFrom (mapError_eq_ok_iff.mp read)).sound

/-- The tokens of a text have a tree exactly when there are some, they are not too many, and the grammar derives it
from them with factors nested as deep as they may be; the grammar derives no two trees from them, at any depth; and
where it derives none within the limits, the tokens are refused with a cause. -/
theorem parse_decides_grammar {cs : List Char} (read : tokenize cs = .ok tokens) :
    (∀ e, parse tokens = .ok e ↔ 1 ≤ tokens.length ∧ tokens.length ≤ maxTokens ∧ Derives maxDepth tokens e) ∧
      (∀ depth deeper e own, Derives depth tokens e → Derives deeper tokens own → e = own) ∧
      ((¬ ∃ e, 1 ≤ tokens.length ∧ tokens.length ≤ maxTokens ∧ Derives maxDepth tokens e) →
        ∃ cause position, parse tokens = .error (.malformed cause position none none)) := by
  have sound := sound_of_tokenize read
  refine ⟨fun e => parse_eq_ok_iff sound, fun _ _ _ _ => Derives.unique sound, ?_⟩
  intro underived
  cases parsed : parse tokens with
  | ok e => exact absurd ⟨e, (parse_eq_ok_iff sound).mp parsed⟩ underived
  | error fault =>
    have placed : ∀ token ∈ tokens, token.SoundAt fun _ => True := fun token member => ⟨sound token member, trivial⟩
    obtain ⟨cause, position, rfl, _⟩ := hasCause_of_parse placed parsed
    exact ⟨cause, position, rfl⟩

/-- The tokens of `7-2-1`. -/
def differences : List Token :=
  [⟨.number, ['7'], 0⟩, ⟨.operator, ['-'], 1⟩, ⟨.number, ['2'], 2⟩, ⟨.operator, ['-'], 3⟩, ⟨.number, ['1'], 4⟩]

/-- Two minus signs are grouped to the left, and in no other way. -/
theorem parse_differences :
    tokenize ['7', '-', '2', '-', '1'] = .ok differences ∧
      parse differences =
        .ok (.binary .sub (.binary .sub (.number (.ofInt 7)) (.number (.ofInt 2))) (.number (.ofInt 1))) ∧
      ∀ depth own, Derives depth differences own →
        own = .binary .sub (.binary .sub (.number (.ofInt 7)) (.number (.ofInt 2))) (.number (.ofInt 1)) := by
  have read : tokenize ['7', '-', '2', '-', '1'] = .ok differences := by
    have some : (tokenize ['7', '-', '2', '-', '1']).toOption = some differences := by decide +kernel
    cases lexed : tokenize ['7', '-', '2', '-', '1'] with
    | error fault =>
      rw [lexed] at some
      cases some
    | ok tokens =>
      rw [lexed] at some
      exact congrArg Except.ok (Option.some.inj some)
  have numeral : ∀ (c : Char) (n : Int) (position : Nat), readReal? [c] = some (.ofInt n) →
      IsProduct (IsFactor maxDepth) [⟨.number, [c], position⟩] (.number (.ofInt n)) :=
    fun c n position value => .one (.number rfl value)
  have seven := numeral '7' 7 0 (by decide +kernel)
  have two := numeral '2' 2 2 (by decide +kernel)
  have one := numeral '1' 1 4 (by decide +kernel)
  have minus : ∀ position, addOperator? ⟨.operator, ['-'], position⟩ = some .sub := fun _ => rfl
  have derives : Derives maxDepth differences
      (.binary .sub (.binary .sub (.number (.ofInt 7)) (.number (.ofInt 2))) (.number (.ofInt 1))) :=
    .more (.more (.one seven) (minus 1) two) (minus 3) one
  obtain ⟨parses, unique, _⟩ := parse_decides_grammar read
  refine ⟨read, (parses _).mpr ⟨by decide, by decide, derives⟩, fun depth own again => ?_⟩
  exact unique depth maxDepth own _ again derives

end Parsed

end Formula

end HeroSheet
