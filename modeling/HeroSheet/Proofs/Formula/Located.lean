import HeroSheet.Proofs.Formula.Spans

/-!
Where faults of arithmetic text point. Reading a text fails at a character of it, or at a token, which starts in it,
and evaluating a tree fails nowhere. So every text has a value or is malformed, and the report tells the text, and no
place outside of it, and no character but the one at the place.
-/

namespace HeroSheet

namespace Formula

open PhraseReader

/-- The fault has a cause, and if it has a place, that is one of the text; a character is the one that stands there. -/
def Fault.PointsInto (cs : List Char) (fault : Fault) : Prop :=
  ∃ cause position character expression, fault = .malformed cause position character expression ∧
    (∀ p ∈ position, p < cs.length) ∧ ∀ c ∈ character, ∃ p ∈ position, cs[p]? = some c

theorem Fault.HasCause.pointsInto {cs : List Char} {fault : Fault} (has : fault.HasCause (· < cs.length)) :
    fault.PointsInto cs := by
  obtain ⟨cause, position, rfl, within⟩ := has
  exact ⟨cause, position, none, none, rfl, within, by simp⟩

section Tokens

variable {whole cs : List Char} {position : Nat} {c : Char} {fault : Fault} {tokens : List Token}

/-- What cannot be read is refused at its place, and with no other character than its first. -/
theorem fault_of_readToken (refused : readToken position c cs = .error fault) :
    ∃ cause character, fault = .malformed cause (some position) character none ∧ ∀ d ∈ character, d = c := by
  have unmarked : ∀ cause, ∃ own character, Fault.located position cause = .malformed own (some position) character none ∧
      ∀ d ∈ character, d = c := fun cause => ⟨cause, none, rfl, by simp⟩
  unfold readToken at refused
  split at refused
  · cases refused
  · split at refused
    · simp only at refused
      split at refused
      · cases refused
        exact unmarked _
      · split at refused
        · cases refused
        · cases refused
          exact unmarked _
    · split at refused
      · cases refused
      · simp only at refused
        split at refused
        · split at refused
          · cases refused
          · cases refused
            exact ⟨_, some c, rfl, by simp⟩
        · split at refused
          · cases refused
          · cases refused
            exact ⟨_, some c, rfl, by simp⟩

/-- Reading what stands in a text from a place on fails at a character of that text. -/
theorem pointsInto_of_tokensFrom (here : whole.drop position = cs) (refused : tokensFrom position cs = .error fault) :
    fault.PointsInto whole := by
  fun_induction tokensFrom position cs with
  | case1 => cases refused
  | case2 position c cs ih =>
    rcases bind_eq_error_iff.mp refused with first | ⟨⟨token?, more⟩, reads, refused⟩
    · obtain ⟨cause, character, rfl, marked⟩ := fault_of_readToken first
      have size := length_of_drop here
      refine ⟨cause, some position, character, none, rfl, ?_, fun d member => ⟨position, rfl, ?_⟩⟩
      · rintro p ⟨⟩
        omega
      · rw [marked d member, ← List.head?_drop, here]
        rfl
    · rcases bind_eq_error_iff.mp refused with later | ⟨tokens, _, impossible⟩
      · exact ih _ (drop_behind here more) later
      · cases impossible

private theorem Lexes.soundAt (lexes : Lexes 0 cs tokens) : ∀ token ∈ tokens, token.SoundAt (· < cs.length) := by
  have tiles := lexes.tiles List.drop_zero
  exact fun token member =>
    ⟨lexes.sound token member, (tiles.nonempty token member).trans_le (tiles.within token member)⟩

end Tokens

/-- Evaluating the tree fails with a cause and without a place, if it fails. -/
def Expr.FailsNowhere (e : Expr) : Prop := ∀ ⦃fault⦄, e.value = .error fault → ∃ cause, fault = .nowhere cause

section Trees

variable {inner : Derivation Expr} {tokens : List Token} {left right operand e : Expr} {args : List Expr} {fault : Fault}

theorem nowhere_of_finiteOnly {x : Binary64} (refused : finiteOnly x = .error fault) :
    ∃ cause, fault = .nowhere cause := by
  unfold finiteOnly at refused
  split at refused
  · cases refused
  · exact ⟨_, (Except.error.inj refused).symm⟩

theorem Expr.FailsNowhere.neg (inside : operand.FailsNowhere) : (Expr.neg operand).FailsNowhere := by
  intro fault refused
  rw [Expr.value] at refused
  rcases bind_eq_error_iff.mp refused with own | ⟨x, _, own⟩
  · exact inside own
  · exact nowhere_of_finiteOnly own

theorem Expr.FailsNowhere.binary (op : Operator) (before : left.FailsNowhere) (behind : right.FailsNowhere) :
    (Expr.binary op left right).FailsNowhere := by
  intro fault refused
  cases op with
  | div =>
    -- the divisor comes first, and is refused for being zero as well
    rw [Expr.value] at refused
    rcases bind_eq_error_iff.mp refused with own | ⟨divisor, _, refused⟩
    · exact behind own
    · split at refused
      · exact ⟨_, (Except.error.inj refused).symm⟩
      · rcases bind_eq_error_iff.mp refused with own | ⟨dividend, _, own⟩
        · exact before own
        · exact nowhere_of_finiteOnly own
  | add | sub | mul =>
    simp only [Expr.value] at refused
    rcases bind_eq_error_iff.mp refused with own | ⟨a, _, refused⟩
    · exact before own
    · rcases bind_eq_error_iff.mp refused with own | ⟨b, _, own⟩
      · exact behind own
      · exact nowhere_of_finiteOnly own

private theorem nowhere_of_valuesOf (inside : ∀ arg ∈ args, arg.FailsNowhere) (refused : valuesOf args = .error fault) :
    ∃ cause, fault = .nowhere cause := by
  induction args with
  | nil =>
    rw [valuesOf] at refused
    cases refused
  | cons arg args ih =>
    obtain ⟨first, others⟩ := List.forall_mem_cons.mp inside
    rw [valuesOf] at refused
    rcases bind_eq_error_iff.mp refused with own | ⟨x, _, refused⟩
    · exact first own
    · rcases bind_eq_error_iff.mp refused with own | ⟨xs, _, impossible⟩
      · exact ih others own
      · cases impossible

/-- There are as many values as trees. -/
private theorem length_valuesOf {values : List Binary64} (ok : valuesOf args = .ok values) :
    values.length = args.length := by
  induction args generalizing values with
  | nil =>
    rw [valuesOf] at ok
    obtain rfl := Except.ok.inj ok
    rfl
  | cons arg args ih =>
    rw [valuesOf] at ok
    obtain ⟨x, _, ok⟩ := bind_eq_ok_iff.mp ok
    obtain ⟨xs, others, ok⟩ := bind_eq_ok_iff.mp ok
    obtain rfl := Except.ok.inj ok
    rw [List.length_cons, List.length_cons, ih others]

/-- The greatest and the least are taken of some values, as the function takes two arguments or more. -/
theorem Expr.FailsNowhere.call {f : Function} (accepted : f.accepts args.length)
    (inside : ∀ arg ∈ args, arg.FailsNowhere) : (Expr.call f args).FailsNowhere := by
  intro fault refused
  cases f with
  | max | min =>
    simp only [Expr.value] at refused
    rcases bind_eq_error_iff.mp refused with own | ⟨values, ok, refused⟩
    · exact nowhere_of_valuesOf inside own
    · have size := length_valuesOf ok
      have many : 2 ≤ args.length := of_decide_eq_true accepted
      split at refused
      · rw [List.length_nil] at size
        omega
      · exact nowhere_of_finiteOnly refused
  | floor | ceil | round =>
    obtain ⟨arg, rfl⟩ := List.length_eq_one_iff.mp (beq_iff_eq.mp accepted)
    simp only [Expr.value] at refused
    rcases bind_eq_error_iff.mp refused with own | ⟨x, _, refused⟩
    · exact inside arg List.mem_cons_self own
    · split at refused
      · exact nowhere_of_finiteOnly refused
      · exact ⟨_, (Except.error.inj refused).symm⟩

theorem failsNowhere_of_isSum (factors : ∀ {tokens e}, inner tokens e → e.FailsNowhere) (sum : IsSum inner tokens e) :
    e.FailsNowhere := by
  refine Chained.forall_of_operands (p := Expr.FailsNowhere) (fun product => ?_) (.binary _) sum
  exact Chained.forall_of_operands (p := Expr.FailsNowhere) factors (.binary _) product

private theorem failsNowhere_of_areArguments (factors : ∀ {tokens e}, inner tokens e → e.FailsNowhere)
    (arguments : AreArguments inner tokens args) : ∀ arg ∈ args, arg.FailsNowhere := by
  refine Chained.forall_of_operands (p := fun args : List Expr => ∀ arg ∈ args, arg.FailsNowhere) ?_ ?_ arguments
  · rintro tokens _ ⟨e, rfl, sum⟩
    exact List.forall_mem_singleton.mpr (failsNowhere_of_isSum factors sum)
  · exact fun before behind => List.forall_mem_append.mpr ⟨before, behind⟩

private theorem failsNowhere_of_factorOf (factors : ∀ {tokens e}, inner tokens e → e.FailsNowhere)
    (factor : FactorOf inner tokens e) : e.FailsNowhere := by
  cases factor with
  | number kind numeral =>
    intro fault refused
    rw [Expr.value] at refused
    exact nowhere_of_finiteOnly refused
  | call kind named opens content closes accepted =>
    exact .call accepted (failsNowhere_of_areArguments factors content)
  | group opens content closes => exact failsNowhere_of_isSum factors content
  | minus kind text content => exact (factors content).neg

private theorem failsNowhere_of_isFactor (depth : Nat) :
    ∀ {tokens : List Token} {e : Expr}, IsFactor depth tokens e → e.FailsNowhere := by
  induction depth with
  | zero => exact fun impossible => impossible.elim
  | succ depth ih => exact failsNowhere_of_factorOf ih

/-- Trees that the grammar derives fail nowhere. -/
private theorem Derives.failsNowhere {depth : Nat} (derives : Derives depth tokens e) : e.FailsNowhere :=
  failsNowhere_of_isSum (failsNowhere_of_isFactor depth) derives

end Trees

/-- The report is that of a malformed text: it tells the text, and what else it tells of place and character is the
place of a character in the text and the character that stands there. -/
structure PointsInto (cs : List Char) (report : Report) : Prop where
  kind : report.kind = .malformedExpression
  expression : Entries.get? report.details "expression" = some (.text (String.ofList cs))
  position : ∀ told ∈ Entries.get? report.details "position", ∃ p : Nat, told = .int p ∧ p < cs.length
  character : ∀ told ∈ Entries.get? report.details "character", ∃ (p : Nat) (c : Char),
    told = .text (String.ofList [c]) ∧ Entries.get? report.details "position" = some (.int p) ∧ cs[p]? = some c

section Text

variable {cs : List Char} {fault : Fault}

theorem Fault.PointsInto.report (points : fault.PointsInto cs) :
    Formula.PointsInto cs (fault.inExpression cs).report := by
  obtain ⟨cause, position, character, expression, rfl, within, marked⟩ := points
  have place : Entries.get? (Fault.malformed cause position character (some cs)).report.details "position" =
      position.map fun p => .int p := by
    cases position <;> cases character <;> rfl
  have mark : Entries.get? (Fault.malformed cause position character (some cs)).report.details "character" =
      character.map fun c => .text (String.ofList [c]) := by
    cases position <;> cases character <;> rfl
  refine ⟨rfl, ?_, ?_, ?_⟩
  · cases position <;> cases character <;> rfl
  · intro told member
    obtain ⟨p, here, rfl⟩ := Option.map_eq_some_iff.mp (place.symm.trans member)
    exact ⟨p, rfl, within p here⟩
  · intro told member
    obtain ⟨c, here, rfl⟩ := Option.map_eq_some_iff.mp (mark.symm.trans member)
    obtain ⟨p, there, stands⟩ := marked c here
    exact ⟨p, c, rfl, place.trans (congrArg _ there), stands⟩

theorem Fault.PointsInto.inExpression (points : fault.PointsInto cs) : (fault.inExpression cs).PointsInto cs := by
  obtain ⟨cause, position, character, expression, rfl, within, marked⟩ := points
  exact ⟨cause, position, character, some cs, rfl, within, marked⟩

private theorem pointsInto_of_tokenize (refused : tokenize cs = .error fault) : fault.PointsInto cs := by
  obtain ⟨own, unread, rfl⟩ := mapError_eq_error_iff.mp refused
  exact (pointsInto_of_tokensFrom List.drop_zero unread).inExpression

private theorem pointsInto_of_tree {tokens : List Token} (lexes : Lexes 0 cs tokens)
    (refused : (parse tokens >>= Expr.value) = .error fault) : fault.PointsInto cs := by
  rcases bind_eq_error_iff.mp refused with unparsed | ⟨e, parsed, failed⟩
  · exact (hasCause_of_parse lexes.soundAt unparsed).pointsInto
  · obtain ⟨_, _, derives⟩ := (parse_eq_ok_iff lexes.sound).mp parsed
    obtain ⟨cause, rfl⟩ := derives.failsNowhere failed
    exact (Fault.hasCause_nowhere cause).pointsInto

/-- Every text has a value, or is reported as malformed; the report tells the text, and points into it. -/
theorem evaluate_points_into (cs : List Char) :
    (∃ x, evaluate cs = .ok x) ∨ ∃ fault, evaluate cs = .error fault ∧ PointsInto cs fault.report := by
  cases evaluated : evaluate cs with
  | ok x => exact .inl ⟨x, rfl⟩
  | error fault =>
    obtain ⟨own, refused, rfl⟩ := mapError_eq_error_iff.mp evaluated
    refine .inr ⟨_, rfl, Fault.PointsInto.report ?_⟩
    rcases bind_eq_error_iff.mp refused with untokenized | ⟨tokens, read, refused⟩
    · exact pointsInto_of_tokenize untokenized
    · exact pointsInto_of_tree (lexes_of_tokensFrom (mapError_eq_ok_iff.mp read)) refused

end Text

end Formula

end HeroSheet
