import HeroSheet.Dice.Parse
import HeroSheet.Proofs.Dice.SignedSum
import HeroSheet.Proofs.Number.Written
import HeroSheet.Proofs.Phrase

namespace HeroSheet

/-- The pool that a single d20 is rolled as. -/
def Advantage.pool : Advantage → Dice.Pool
  | .normal => ⟨1, 20, []⟩
  | .advantage => ⟨2, 20, [⟨true, 1⟩]⟩
  | .disadvantage => ⟨2, 20, [⟨false, 1⟩]⟩

namespace Dice

variable {state : Advantage} {rest cs : List Char}

section Trees

def Sign.op (sign : Sign) : Operator := if sign.negative then .sub else .add

def Operand.tree (state : Advantage) : Operand → Expr Pool
  | .integer digits => .literal (.whole (digitsNumber digits))
  | .dice count sides => .dice ⟨countOf count, digitsNumber sides, []⟩
  | .d20 _ => .dice state.pool

def Addend.tree (state : Advantage) (addend : Addend) : Expr Pool :=
  addend.signs.foldr (fun sign tree => .signed sign.negative tree) (addend.operand.tree state)

/-- Addends behind those that make up a tree. -/
def joined (state : Advantage) (left : Expr Pool) (others : List (Sign × Addend)) : Expr Pool :=
  others.foldl (fun left (sign, addend) => .binary sign.op left (addend.tree state)) left

def SignedSum.tree (state : Advantage) (sum : SignedSum) : Expr Pool := joined state (sum.first.tree state) sum.others

end Trees

section Tokens

/-- The size of the longest integer in the operand. -/
def Operand.size : Operand → Nat
  | .integer digits => digits.length
  | .dice count sides => max count.length sides.length
  | .d20 _ => 2

def Operand.token (state : Advantage) : Operand → Token
  | .integer digits => .number (.whole (digitsNumber digits)) digits.length
  | .dice count sides => .pool ⟨countOf count, digitsNumber sides, []⟩ (max count.length sides.length)
  | .d20 _ => .pool state.pool 2

def Addend.tokens (state : Advantage) (addend : Addend) : List Token :=
  addend.signs.map (fun sign => .operator sign.op) ++ [addend.operand.token state]

def othersTokens (state : Advantage) (others : List (Sign × Addend)) : List Token :=
  others.flatMap fun (sign, addend) => .operator sign.op :: addend.tokens state

def SignedSum.tokens (state : Advantage) (sum : SignedSum) : List Token :=
  sum.first.tokens state ++ othersTokens state sum.others

end Tokens

section Lexed

/-- A text that no blank starts. -/
def StartsSolid (cs : List Char) : Prop := ∀ c ∈ cs.head?, isGap c = false

theorem plainDigits_append {ds : List Char} (digits : ∀ c ∈ ds, c.isDigit)
    (ends : ∀ c ∈ rest.head?, c.isDigit = false) : plainDigits (ds ++ rest) = ds := by
  rw [plainDigits, List.takeWhile_append_of_pos digits]
  cases rest with
  | nil => rw [List.takeWhile_nil, List.append_nil]
  | cons c rest => rw [List.takeWhile_cons_of_neg (by simp [ends c rfl]), List.append_nil]

theorem readToken?_of_digit {c : Char} (digit : c.isDigit) : readToken? (c :: cs) = readNumber? (c :: cs) := by
  have listed := mem_asciiDigits digit
  simp only [asciiDigits, List.mem_cons, List.not_mem_nil, or_false] at listed
  rcases listed with rfl | rfl | rfl | rfl | rfl | rfl | rfl | rfl | rfl | rfl <;> rfl

theorem readKeeps_of_ends (ends : EndsOperand rest) : readKeeps rest = ([], .marks 0) := by
  unfold readKeeps
  split
  · exact absurd rfl (ends.apart rfl).2.2.2
  · rfl

private theorem readKeeps_one {c : Char} (kind : (c == 'h' || c == 'l') = true) (ends : EndsOperand rest) :
    readKeeps ('k' :: c :: '1' :: rest) = ([⟨c == 'h', 1⟩], ⟨3, 1⟩) := by
  have one : ∀ d ∈ ['1'], d.isDigit := forall_of_all (by decide)
  have count : plainDigits ('1' :: rest) = ['1'] := plainDigits_append one fun d first => (ends.apart first).1
  rw [readKeeps]
  simp only [count, kind, List.isEmpty_cons, Bool.not_false, Bool.and_self, if_true, List.length_singleton,
    List.drop_one, List.tail_cons, readKeeps_of_ends ends]
  rfl

private theorem Span.append_eq (first second : Span) :
    first ++ second = ⟨first.width + second.width, max first.digits second.digits⟩ := rfl

theorem readSides?_append {count : Nat} {before : Span} {sides : List Char} (digits : ∀ c ∈ sides, c.isDigit)
    (present : sides ≠ []) (ends : ∀ c ∈ rest.head?, c.isDigit = false) :
    readSides? count before (sides ++ rest) =
      some (.pool ⟨count, digitsNumber sides, (readKeeps rest).1⟩
          (max (max before.digits sides.length) (readKeeps rest).2.digits),
        before.width + 1 + sides.length + (readKeeps rest).2.width) := by
  have own := plainDigits_append digits ends
  have some : sides.isEmpty = false := by simpa using present
  simp only [readSides?, own, some, List.drop_left, Bool.false_eq_true, if_false, Span.append_eq, Span.marks,
    Span.integer, Nat.max_zero]

theorem readToken?_dice {count sides : List Char} (counts : ∀ c ∈ count, c.isDigit) (digits : ∀ c ∈ sides, c.isDigit)
    (present : sides ≠ []) (ends : ∀ c ∈ rest.head?, c.isDigit = false) :
    readToken? (count ++ 'd' :: (sides ++ rest)) =
      some (.pool ⟨countOf count, digitsNumber sides, (readKeeps rest).1⟩
          (max (max count.length sides.length) (readKeeps rest).2.digits),
        count.length + 1 + sides.length + (readKeeps rest).2.width) := by
  cases count with
  | nil =>
    rw [List.nil_append, readToken?, readSides?_append digits present ends]
    rfl
  | cons c count =>
    have whole : plainDigits (c :: count ++ 'd' :: (sides ++ rest)) = c :: count :=
      plainDigits_append counts (by rintro d ⟨⟩; decide)
    rw [List.cons_append, readToken?_of_digit (counts c List.mem_cons_self), ← List.cons_append, readNumber?]
    simp only [whole, List.drop_left, readSides?_append digits present ends]
    rfl

private theorem readNumber?_whole {digits : List Char} (all : ∀ c ∈ digits, c.isDigit) (ends : EndsOperand rest) :
    readNumber? (digits ++ rest) = some (.number (.whole (digitsNumber digits)) digits.length, digits.length) := by
  have whole := plainDigits_append all fun c first => (ends.apart first).1
  unfold readNumber?
  simp only [whole, List.drop_left]
  split
  · exact absurd rfl (ends.apart rfl).2.1
  · exact absurd rfl (ends.apart rfl).2.2.1
  · rfl

private theorem readToken?_operand (state : Advantage) {operand : Operand} (written : operand.Written)
    (ends : EndsOperand rest) :
    readToken? (operand.text state ++ rest) = some (operand.token state, (operand.text state).length) := by
  have noDigit : ∀ c ∈ rest.head?, c.isDigit = false := fun c first => (ends.apart first).1
  cases operand with
  | integer digits =>
    obtain ⟨present, all⟩ := written
    obtain ⟨c, digits, rfl⟩ := List.exists_cons_of_ne_nil present
    rw [Operand.text, List.cons_append, readToken?_of_digit (all c List.mem_cons_self), ← List.cons_append,
      readNumber?_whole all ends]
    rfl
  | dice count sides =>
    obtain ⟨counts, ⟨present, digits⟩, _⟩ := written
    have read := readToken?_dice counts digits present noDigit
    rw [readKeeps_of_ends ends] at read
    rw [Operand.text, List.append_assoc, List.cons_append, read]
    simp [Operand.token, Span.marks, Nat.add_assoc, Nat.add_comm 1]
  | d20 counted =>
    have twenty : ∀ c ∈ ['2', '0'], c.isDigit := forall_of_all (by decide)
    have pair : ∀ c : Char, (c == 'h' || c == 'l') = true →
        readToken? (['2'] ++ 'd' :: (['2', '0'] ++ 'k' :: c :: '1' :: rest)) =
          some (.pool ⟨2, 20, [⟨c == 'h', 1⟩]⟩ 2, 7) := by
      intro c kind
      have two : ∀ c ∈ ['2'], c.isDigit := forall_of_all (by decide)
      rw [readToken?_dice two twenty (by decide) (by rintro d ⟨⟩; decide), readKeeps_one kind ends]
      rfl
    cases state with
    | normal =>
      have single : ∀ count : List Char, (∀ c ∈ count, c.isDigit) →
          readToken? (count ++ 'd' :: (['2', '0'] ++ rest)) =
            some (.pool ⟨countOf count, 20, []⟩ (max count.length 2), count.length + 3) := by
        intro count counts
        rw [readToken?_dice counts twenty (by decide) noDigit, readKeeps_of_ends ends]
        change some (Token.pool ⟨countOf count, 20, []⟩ (max (max count.length 2) 0), count.length + 3) = _
        rw [Nat.max_zero]
      cases counted with
      | true => exact single ['1'] (forall_of_all (by decide))
      | false => exact single [] (List.forall_mem_nil _)
    | advantage => exact pair 'h' rfl
    | disadvantage => exact pair 'l' rfl

theorem tokens?_append {source gap : List Char} {token : Token} (present : source ≠ [])
    (read : readToken? (source ++ (gap ++ rest)) = some (token, source.length)) (blank : ∀ c ∈ gap, isGap c)
    (solid : StartsSolid rest) : tokens? (source ++ (gap ++ rest)) = (tokens? rest).map (token :: ·) := by
  obtain ⟨c, source, rfl⟩ := List.exists_cons_of_ne_nil present
  have behind : (gap ++ rest).dropWhile isGap = rest := by
    rw [List.dropWhile_append_of_pos blank]
    cases rest with
    | nil => rfl
    | cons d rest => exact List.dropWhile_cons_of_neg (by simp [solid d rfl])
  rw [List.cons_append] at read ⊢
  rw [tokens?, read]
  simp only [Option.bind_eq_bind, Option.bind_some, List.length_cons, Nat.add_sub_cancel, List.drop_left, behind]
  cases tokens? rest <;> rfl

theorem tokens?_sign {sign : Sign} (written : sign.Written) (solid : StartsSolid rest) :
    tokens? (sign.text ++ rest) = (tokens? rest).map (.operator sign.op :: ·) := by
  have read : readToken? ([if sign.negative then '-' else '+'] ++ (sign.gap ++ rest)) = some (.operator sign.op, 1) := by
    unfold Sign.op
    cases sign.negative <;> rfl
  exact tokens?_append (List.cons_ne_nil _ _) read written solid

private theorem startsSolid_nil : StartsSolid [] := by simp [StartsSolid]

theorem startsSolid_sign (sign : Sign) (rest : List Char) : StartsSolid (sign.text ++ rest) := by
  rintro c ⟨⟩
  cases sign.negative <;> decide

private theorem operand_text_ne_nil {operand : Operand} (written : operand.Written) : operand.text state ≠ [] := by
  obtain ⟨c, cs, eq, _⟩ := operand_text_eq_cons state written
  rw [eq]
  exact List.cons_ne_nil c cs

theorem startsSolid_operand {operand : Operand} (written : operand.Written) (rest : List Char) :
    StartsSolid (operand.text state ++ rest) := by
  obtain ⟨c, cs, eq, starts⟩ := operand_text_eq_cons state written
  have solid : ∀ d ∈ asciiDigits, isGap d = false := forall_of_all (by decide)
  rw [eq]
  rintro d ⟨⟩
  rcases starts with digit | rfl
  · exact solid c (mem_asciiDigits digit)
  · decide

theorem startsSolid_signs {signs : List Sign} (solid : StartsSolid rest) :
    StartsSolid (signs.flatMap Sign.text ++ rest) := by
  cases signs with
  | nil => exact solid
  | cons sign signs =>
    rw [List.flatMap_cons, List.append_assoc]
    exact startsSolid_sign sign _

private theorem startsSolid_addend {addend : Addend} (written : addend.Written) (rest : List Char) :
    StartsSolid (addend.text state ++ rest) := by
  rw [Addend.text, List.append_assoc, List.append_assoc]
  exact startsSolid_signs (startsSolid_operand written.2.1 _)

theorem startsSolid_othersText (others : List (Sign × Addend)) : StartsSolid (othersText state others) := by
  cases others with
  | nil => exact startsSolid_nil
  | cons other others =>
    rw [othersText_cons]
    exact startsSolid_sign other.1 _

private theorem tokens?_signs {signs : List Sign} (written : ∀ sign ∈ signs, sign.Written) (solid : StartsSolid rest) :
    tokens? (signs.flatMap Sign.text ++ rest) = (tokens? rest).map (signs.map (fun sign => .operator sign.op) ++ ·) := by
  induction signs with
  | nil => cases given : tokens? rest <;> simp [given]
  | cons sign signs ih =>
    obtain ⟨own, written⟩ := List.forall_mem_cons.mp written
    rw [List.flatMap_cons, List.append_assoc, tokens?_sign own (startsSolid_signs solid), ih written, Option.map_map]
    rfl

theorem tokens?_addend {addend : Addend} (written : addend.Written) (ends : EndsOperand rest)
    (solid : StartsSolid rest) :
    tokens? (addend.text state ++ rest) = (tokens? rest).map (addend.tokens state ++ ·) := by
  obtain ⟨signs, operand, blank⟩ := written
  have read := readToken?_operand state operand (ends.append blank)
  rw [Addend.text, List.append_assoc, List.append_assoc, tokens?_signs signs (startsSolid_operand operand _),
    tokens?_append (operand_text_ne_nil operand) read blank solid, Option.map_map]
  congr 1
  funext tokens
  simp [Addend.tokens]

private theorem tokens?_othersText {others : List (Sign × Addend)}
    (written : ∀ other ∈ others, other.1.Written ∧ other.2.Written) :
    tokens? (othersText state others) = some (othersTokens state others) := by
  induction others with
  | nil => rw [othersText, List.flatMap_nil, tokens?]; rfl
  | cons other others ih =>
    obtain ⟨⟨sign, addend⟩, written⟩ := List.forall_mem_cons.mp written
    rw [othersText_cons, tokens?_sign sign (startsSolid_addend addend _),
      tokens?_addend addend (endsOperand_othersText others) (startsSolid_othersText others), ih written]
    rfl

private theorem tokens?_text {sum : SignedSum} (written : sum.Written) :
    tokens? (sum.text state) = some (sum.tokens state) := by
  rw [SignedSum.text, tokens?_addend written.1 (endsOperand_othersText _) (startsSolid_othersText _),
    tokens?_othersText written.2]
  rfl

end Lexed

section Parsed

open PhraseReader (Reads Continues reads_chain_iff)

variable {tokens : List Token} {room : Nat}

/-- What may stand behind an operand: a sign, or nothing. -/
def EndsAddend (tokens : List Token) : Prop := ∀ token ∈ tokens.head?, ∃ sign : Sign, token = .operator sign.op

private theorem annotate_of_ends (term : Expr Pool) (ends : EndsAddend tokens) :
    annotate term tokens = ⟨(term, tokens), Nat.le_refl _⟩ := by
  cases tokens with
  | nil => rfl
  | cons token tokens =>
    obtain ⟨sign, rfl⟩ := ends token rfl
    rfl

private theorem reads_operand (operand : Operand) (ends : EndsAddend tokens) :
    Reads (factor (room + 1)) (operand.token state :: tokens) (operand.tree state) tokens := by
  refine ⟨Nat.lt_succ_self _, ?_⟩
  cases operand <;> simp only [factor, Operand.token, primary, annotate_of_ends _ ends] <;> rfl

private theorem reads_sign (sign : Sign) {symbols : List Token} {tree : Expr Pool}
    (reads : Reads (factor room) symbols tree tokens) :
    Reads (factor (room + 1)) (.operator sign.op :: symbols) (.signed sign.negative tree) tokens := by
  obtain ⟨shorter, read⟩ := reads
  refine ⟨Nat.lt_succ_of_lt shorter, ?_⟩
  obtain ⟨negative, gap⟩ := sign
  cases negative with
  | false =>
    change primary (factor room) (.operator .add :: symbols) = _
    simp only [primary, read]
  | true =>
    change primary (factor room) (.operator .sub :: symbols) = _
    simp only [primary, read]

private theorem reads_signs (state : Advantage) (operand : Operand) {signs : List Sign} (ends : EndsAddend tokens)
    (fits : signs.length < room) :
    Reads (factor room) (signs.map (fun sign => .operator sign.op) ++ operand.token state :: tokens)
      (signs.foldr (fun sign tree => .signed sign.negative tree) (operand.tree state)) tokens := by
  induction signs generalizing room with
  | nil =>
    obtain ⟨room, rfl⟩ := Nat.exists_eq_succ_of_ne_zero (Nat.ne_of_gt fits)
    exact reads_operand operand ends
  | cons sign signs ih =>
    obtain ⟨room, rfl⟩ := Nat.exists_eq_succ_of_ne_zero (Nat.ne_of_gt (Nat.zero_lt_of_lt fits))
    exact reads_sign sign (ih (Nat.lt_of_succ_lt_succ fits))

theorem reads_addend (addend : Addend) (ends : EndsAddend tokens) (fits : addend.signs.length < room) :
    Reads (PhraseReader.chain (factor room) mulOperator? Expr.binary) (addend.tokens state ++ tokens)
      (addend.tree state) tokens := by
  have reads := reads_signs state addend.operand ends fits
  refine reads_chain_iff.mpr ⟨_, tokens, ?_, .stop fun token first => ?_⟩
  · rw [Addend.tokens, List.append_assoc]
    exact reads
  · obtain ⟨sign, rfl⟩ := ends token first
    unfold Sign.op
    cases sign.negative <;> rfl

theorem endsAddend_othersTokens (others : List (Sign × Addend)) : EndsAddend (othersTokens state others) := by
  cases others with
  | nil => simp [EndsAddend, othersTokens]
  | cons other others =>
    rintro token ⟨⟩
    exact ⟨other.1, rfl⟩

private theorem continues_others {others : List (Sign × Addend)} (left : Expr Pool)
    (fits : ∀ other ∈ others, other.2.signs.length < room) :
    Continues (PhraseReader.chain (factor room) mulOperator? Expr.binary) addOperator? Expr.binary left
      (othersTokens state others) (joined state left others) [] := by
  induction others generalizing left with
  | nil => exact .stop (by simp [othersTokens])
  | cons other others ih =>
    obtain ⟨own, fits⟩ := List.forall_mem_cons.mp fits
    have found : addOperator? (.operator other.1.op) = some other.1.op := by
      unfold Sign.op
      cases other.1.negative <;> rfl
    exact .step found (reads_addend other.2 (endsAddend_othersTokens others) own) (ih _ fits)

theorem length_signs_lt (state : Advantage) (addend : Addend) : addend.signs.length < (addend.tokens state).length := by
  simp [Addend.tokens]

private theorem length_tokens_le (state : Advantage) {others : List (Sign × Addend)} {other : Sign × Addend}
    (member : other ∈ others) :
    (other.2.tokens state).length ≤ (othersTokens state others).length := by
  induction others with
  | nil => cases member
  | cons own others ih =>
    rw [othersTokens, List.flatMap_cons, List.length_append, List.length_cons]
    rcases List.mem_cons.mp member with rfl | later
    · omega
    · exact (ih later).trans (Nat.le_add_left _ _)

private theorem parse?_tokens (sum : SignedSum) : parse? (sum.tokens state) = some (sum.tree state) := by
  have first : sum.first.signs.length < (sum.tokens state).length := by
    have own := length_signs_lt state sum.first
    rw [SignedSum.tokens, List.length_append]
    omega
  have others : ∀ other ∈ sum.others, other.2.signs.length < (sum.tokens state).length := by
    intro other member
    have own := length_signs_lt state other.2
    have listed := length_tokens_le state member
    rw [SignedSum.tokens, List.length_append]
    omega
  obtain ⟨_, read⟩ : Reads (Dice.sum (factor (sum.tokens state).length)) (sum.tokens state) (sum.tree state) [] :=
    reads_chain_iff.mpr ⟨_, _, reads_addend sum.first (endsAddend_othersTokens sum.others) first,
      continues_others _ others⟩
  rw [parse?, read]

end Parsed

/-- An integer of the sum is too long to be read. -/
def SignedSum.isTooLong (sum : SignedSum) : Bool := sum.operands.any fun operand => maxIntegerDigits < operand.size

private theorem isTooLong_token (operand : Operand) :
    (operand.token state).isTooLong = decide (maxIntegerDigits < operand.size) := by
  cases operand <;> rfl

theorem any_isTooLong_addend (addend : Addend) :
    (addend.tokens state).any Token.isTooLong = decide (maxIntegerDigits < addend.operand.size) := by
  rw [Addend.tokens, List.any_append, List.any_map, List.any_eq_false.mpr (by simp [Token.isTooLong]), Bool.false_or,
    List.any_cons, List.any_nil, Bool.or_false, isTooLong_token]

private theorem any_isTooLong_tokens (sum : SignedSum) : (sum.tokens state).any Token.isTooLong = sum.isTooLong := by
  have others : ∀ others : List (Sign × Addend), (othersTokens state others).any Token.isTooLong =
      (others.map fun other => other.2.operand).any fun operand => maxIntegerDigits < operand.size := by
    intro others
    induction others with
    | nil => rfl
    | cons other others ih =>
      rw [othersTokens, List.flatMap_cons, List.any_append, List.any_cons, any_isTooLong_addend, List.map_cons,
        List.any_cons, ← ih]
      rfl
  rw [SignedSum.tokens, List.any_append, any_isTooLong_addend, others]
  rfl

/-- A sum as it is written is read as its tree, unless one of its integers is too long. -/
theorem read_text {sum : SignedSum} (written : sum.Written) :
    read (sum.text state) = if sum.isTooLong then .error .numeralTooLong else .ok (sum.tree state) := by
  unfold read
  simp only [tokens?_text written, parse?_tokens, any_isTooLong_tokens]

end Dice

end HeroSheet
