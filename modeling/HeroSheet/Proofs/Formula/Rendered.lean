import HeroSheet.Proofs.Formula.Evaluated

namespace HeroSheet

/-- The text of a magnitude in a formula. -/
def Magnitude.rendered (m : Magnitude) : List Char := if m.isWhole then naturalText m.floor else m.text

/-- The magnitude is written in a formula without an exponent. -/
def Magnitude.IsPlain (m : Magnitude) : Prop := m.isWhole ∨ m.IsPositional

namespace Formula

open PhraseReader

section Rendered

variable {m : Magnitude} {x : Binary64}

theorem isNumeral_rendered (plain : m.IsPlain) : IsNumeral m.rendered (.finite false m) := by
  unfold Magnitude.rendered
  by_cases whole : m.isWhole
  · rw [if_pos whole]
    exact Magnitude.isNumeral_floor whole
  · rw [if_neg whole]
    exact Magnitude.isNumeral_text (plain.resolve_left whole)

theorem rendered_of_units_eq_zero (zero : m.units = 0) : m.rendered = naturalText 0 := by
  rw [Magnitude.rendered, if_pos (Magnitude.isWhole_of_units_eq_zero zero), Magnitude.floor_of_units_eq_zero zero]

theorem integerText_neg {n : Nat} (positive : 0 < n) : integerText (-(n : Int)) = '-' :: naturalText n := by
  obtain ⟨n, rfl⟩ := Nat.exists_eq_add_one_of_ne_zero (Nat.ne_of_gt positive)
  rfl

/-- A sign stands before the magnitude unless it is zero. -/
theorem renderNumber_finite (negative : Bool) (m : Magnitude) :
    renderNumber (.finite negative m) =
      if negative ∧ m.units ≠ 0 then '-' :: m.rendered else m.rendered := by
  by_cases whole : m.isWhole
  · have size : m.rendered = naturalText m.floor := if_pos whole
    have text : renderNumber (.finite negative m) =
        integerText (if negative then -(m.floor : Int) else m.floor) := if_pos whole
    rw [text, size]
    cases negative with
    | false => rfl
    | true =>
      by_cases zero : m.units = 0
      · simp only [zero, Magnitude.floor_of_units_eq_zero zero]
        rfl
      · rw [if_pos rfl, if_pos ⟨rfl, zero⟩, integerText_neg (Magnitude.floor_pos whole zero)]
  · have nonzero : m.units ≠ 0 := fun zero => whole (Magnitude.isWhole_of_units_eq_zero zero)
    have size : m.rendered = m.text := if_neg whole
    have text : renderNumber (.finite negative m) = (Binary64.finite negative m).text := if_neg whole
    rw [text, size, Binary64.text, if_neg nonzero]
    cases negative with
    | false => rfl
    | true => exact (if_pos ⟨rfl, nonzero⟩).symm

/-- A zero has no sign; the sign of another number below zero stands in front. -/
theorem rendered_cases (finite : x.isFinite) :
    (∃ m, unsignedZero x = .finite false m ∧ renderNumber x = m.rendered) ∨
      ∃ m, x = .finite true m ∧ m.units ≠ 0 ∧ renderNumber x = '-' :: m.rendered := by
  cases x with
  | infinite | nan => cases finite
  | finite negative m =>
    rw [renderNumber_finite]
    by_cases zero : m.units = 0
    · refine Or.inl ⟨.zero, by simp [unsignedZero, Binary64.isZero, zero, Binary64.zero], ?_⟩
      rw [if_neg (by simp [zero]), rendered_of_units_eq_zero zero, rendered_of_units_eq_zero (m := .zero) rfl]
    · have signed : unsignedZero (.finite negative m) = .finite negative m := by
        simp [unsignedZero, Binary64.isZero, zero]
      cases negative with
      | false => exact Or.inl ⟨m, signed, if_neg (by simp)⟩
      | true => exact Or.inr ⟨m, rfl, zero, if_pos ⟨rfl, zero⟩⟩

private theorem isWhole_unsignedZero (x : Binary64) : (unsignedZero x).isWhole = x.isWhole := by
  unfold unsignedZero
  split
  · rename_i zero
    cases x with
    | infinite | nan => cases zero
    | finite negative m =>
      have whole : m.isWhole := Magnitude.isWhole_of_units_eq_zero (of_decide_eq_true zero)
      exact (Magnitude.isWhole_of_units_eq_zero (m := .zero) rfl).trans whole.symm
  · rfl

/-- A magnitude that is not plain is written with an exponent. -/
theorem rendered_of_not_isPlain (exponential : ¬ m.IsPlain) :
    ∃ mantissa sign exponent, m.rendered = mantissa ++ 'e' :: sign :: exponent ∧ mantissa ≠ [] ∧
      (∀ c ∈ mantissa, c.isDigit ∨ c = '.') ∧ (sign = '-' ∨ sign = '+') ∧ ∀ c ∈ exponent, c.isDigit := by
  obtain ⟨fraction, tiny⟩ := not_or.mp exponential
  rw [Magnitude.rendered, if_neg fraction]
  exact Magnitude.text_of_not_isPositional tiny

theorem isPlain_of_rendered (plain : 'e' ∉ m.rendered) : m.IsPlain := by
  by_contra exponential
  obtain ⟨mantissa, sign, exponent, text, _⟩ := rendered_of_not_isPlain exponential
  exact plain (by simp [text])

theorem not_mem_of_isPlain (plain : m.IsPlain) : 'e' ∉ m.rendered := by
  intro member
  have digit := (isNumeral_rendered plain).chars 'e' member
  revert digit
  decide

/-- The characters of rendered numbers. -/
def IsNumberChar (c : Char) : Prop := c.isDigit ∨ c ∈ ['.', '-', '+', 'e']

theorem IsNumberChar.of_all {c : Char} (char : IsNumberChar c) (p : Char → Prop) [DecidablePred p]
    (all : (asciiDigits ++ ['.', '-', '+', 'e']).all fun d => p d) : p c :=
  forall_of_all all c (List.mem_append.mpr (char.imp_left mem_asciiDigits))

theorem isNumberChar_of_digit {c : Char} (digit : c.isDigit ∨ c = '.') : IsNumberChar c := by
  rcases digit with digit | rfl
  · exact Or.inl digit
  · exact Or.inr (by decide)

theorem isNumberChar_of_rendered (m : Magnitude) : ∀ c ∈ m.rendered, IsNumberChar c := by
  by_cases plain : m.IsPlain
  · exact fun c member => isNumberChar_of_digit ((isNumeral_rendered plain).chars c member)
  · obtain ⟨mantissa, sign, exponent, text, _, digits, marks, places⟩ := rendered_of_not_isPlain plain
    intro c member
    rw [text, List.mem_append, List.mem_cons, List.mem_cons] at member
    rcases member with digit | rfl | rfl | digit
    · exact isNumberChar_of_digit (digits c digit)
    · exact Or.inr (by decide)
    · rcases marks with rfl | rfl <;> exact Or.inr (by decide)
    · exact Or.inl (places c digit)

private theorem rendered_ne_nil (m : Magnitude) : m.rendered ≠ [] := by
  by_cases plain : m.IsPlain
  · exact (isNumeral_rendered plain).present
  · obtain ⟨mantissa, sign, exponent, text, _⟩ := rendered_of_not_isPlain plain
    simp [text]

theorem renderNumber_ne_nil (finite : x.isFinite) : renderNumber x ≠ [] := by
  rcases rendered_cases finite with ⟨m, _, text⟩ | ⟨m, _, _, text⟩
  · rw [text]
    exact rendered_ne_nil m
  · simp [text]

theorem isNumberChar_of_renderNumber (finite : x.isFinite) : ∀ c ∈ renderNumber x, IsNumberChar c := by
  rcases rendered_cases finite with ⟨m, _, text⟩ | ⟨m, _, _, text⟩
  · rw [text]
    exact isNumberChar_of_rendered m
  · rw [text]
    intro c member
    rcases List.mem_cons.mp member with rfl | member
    · exact Or.inr (by decide)
    · exact isNumberChar_of_rendered m c member

/-- Whole numbers have no exponent. -/
theorem not_isWhole_of_exponent (finite : x.isFinite) (exponential : 'e' ∈ renderNumber x) : ¬ x.isWhole := by
  intro whole
  rcases rendered_cases finite with ⟨m, same, text⟩ | ⟨m, rfl, _, text⟩
  · rw [← isWhole_unsignedZero, same] at whole
    rw [text] at exponential
    exact not_mem_of_isPlain (Or.inl whole) exponential
  · rw [text] at exponential
    exact not_mem_of_isPlain (Or.inl whole) ((List.mem_cons.mp exponential).resolve_left (by decide))

end Rendered

section Numeral

variable {cs : List Char} {x : Binary64}

theorem mem_of_digit {c : Char} (digit : c.isDigit ∨ c = '.') : c ∈ '.' :: asciiDigits := by
  rcases digit with digit | rfl
  · exact List.mem_cons_of_mem _ (mem_asciiDigits digit)
  · exact List.mem_cons_self

theorem isNumeralChar_of_digit {c : Char} (digit : c.isDigit ∨ c = '.') : isNumeralChar c := by
  have numerals : ∀ d ∈ '.' :: asciiDigits, isNumeralChar d := forall_of_all (by decide)
  exact numerals c (mem_of_digit digit)

theorem not_isBlank_of_digit {c : Char} (digit : c.isDigit ∨ c = '.') : isBlank c = false := by
  have unblank : ∀ d ∈ '.' :: asciiDigits, isBlank d = false := forall_of_all (by decide)
  exact unblank c (mem_of_digit digit)

/-- A numeral is one token in front of a text that does not go on with one. -/
theorem lexes_number {rest : List Char} {more : List Token} {position : Nat} (present : cs ≠ [])
    (chars : ∀ c ∈ cs, isNumeralChar c ∧ isBlank c = false) (value : readReal? cs = some x) (finite : x.isFinite)
    (ends : ∀ c ∈ rest.head?, isNumeralChar c = false) (others : Lexes (position + cs.length) rest more) :
    Lexes position (cs ++ rest) (⟨.number, cs, position⟩ :: more) := by
  cases cs with
  | nil => exact absurd rfl present
  | cons c cs =>
    obtain ⟨numeral, solid⟩ := chars c List.mem_cons_self
    have whole : (cs ++ rest).takeWhile isNumeralChar = cs := by
      rw [takeWhile_append_of_ends fun _ => ends]
      exact List.takeWhile_eq_self_iff.mpr fun d member => (chars d (List.mem_cons_of_mem c member)).1
    have first : readToken position c (cs ++ rest) = .ok (some ⟨.number, c :: cs, position⟩, cs.length) := by
      unfold readToken
      simp [solid, numeral, whole, value, finite]
    have behind : rest = (cs ++ rest).drop cs.length := List.drop_left.symm
    rw [behind] at others
    exact .step first others

theorem lexes_numeral (numeral : IsNumeral cs x) (finite : x.isFinite) (position : Nat) :
    Lexes position cs [⟨.number, cs, position⟩] := by
  have chars : ∀ c ∈ cs, isNumeralChar c ∧ isBlank c = false := fun c member =>
    ⟨isNumeralChar_of_digit (numeral.chars c member), not_isBlank_of_digit (numeral.chars c member)⟩
  have lexes : Lexes position (cs ++ []) [⟨.number, cs, position⟩] :=
    lexes_number numeral.present chars numeral.value finite (by simp) .nil
  rwa [List.append_nil] at lexes

theorem means_numeral (numeral : IsNumeral cs x) (position : Nat) :
    Token.Means ⟨.number, cs, position⟩ (.number x) :=
  .number position (fun c member => isNumeralChar_of_digit (numeral.chars c member)) numeral.value

private theorem lexes_minus {tokens : List Token} {position : Nat} (lexes : Lexes (position + 1) cs tokens) :
    Lexes position ('-' :: cs) (⟨.operator, ['-'], position⟩ :: tokens) := by
  have reads : readToken position '-' cs = .ok (some ⟨.operator, ['-'], position⟩, 0) := rfl
  exact .step reads lexes

theorem reads_number (numeral : IsNumeral cs x) (inner : Reader Expr) (position : Nat) (rest : List Token) :
    Reads (primary inner) (⟨.number, cs, position⟩ :: rest) (.number x) rest :=
  ⟨Nat.lt_succ_self _, by simp only [primary, numeral.value]⟩

private theorem reads_minus {inner : Reader Expr} {tokens rest : List Token} {e : Expr}
    (reads : Reads inner tokens e rest)
    (position : Nat) : Reads (primary inner) (⟨.operator, ['-'], position⟩ :: tokens) (.neg e) rest := by
  obtain ⟨shorter, reads⟩ := reads
  exact ⟨Nat.lt_succ_of_lt shorter, by simp only [primary, reads, if_true]⟩

/-- A few tokens that are one factor are the whole tree. -/
theorem parse_of_reads {tokens : List Token} {e : Expr} (few : tokens.length ≤ maxTokens)
    (reads : Reads (factor maxDepth) tokens e []) : parse tokens = .ok e := by
  have whole : Reads (sum (factor maxDepth)) tokens e [] :=
    reads_chain_iff.mpr ⟨e, [], reads_chain_iff.mpr ⟨e, [], reads, .stop (by simp)⟩, .stop (by simp)⟩
  exact parse_eq_ok_iff_reads.mpr ⟨few, whole⟩

private theorem evaluate_numeral (numeral : IsNumeral cs x) (finite : x.isFinite) : evaluate cs = .ok x := by
  refine evaluate_eq_ok_iff.mpr ⟨_, _, lexes_numeral numeral finite 0,
    parse_of_reads (by simp [maxTokens]) (reads_number numeral _ 0 []), ?_⟩
  rw [Expr.value, finiteOnly, if_pos finite]

private theorem evaluate_minus (numeral : IsNumeral cs x) (finite : x.isFinite) : evaluate ('-' :: cs) = .ok (-x) := by
  have negated : (-x).isFinite := by
    cases x with
    | finite => rfl
    | infinite | nan => cases finite
  refine evaluate_eq_ok_iff.mpr ⟨_, _, lexes_minus (lexes_numeral numeral finite 1),
    parse_of_reads (by simp [maxTokens]) (reads_minus (reads_number numeral _ 1 []) 0), ?_⟩
  rw [Expr.value, Expr.value, finiteOnly, if_pos finite]
  exact if_pos negated

/-- A number without an exponent evaluates to itself. -/
theorem evaluate_renderNumber (finite : x.isFinite) (plain : 'e' ∉ renderNumber x) :
    evaluate (renderNumber x) = .ok (unsignedZero x) := by
  rcases rendered_cases finite with ⟨m, same, text⟩ | ⟨m, rfl, nonzero, text⟩
  · rw [text] at plain ⊢
    rw [same]
    exact evaluate_numeral (isNumeral_rendered (isPlain_of_rendered plain)) rfl
  · rw [text] at plain ⊢
    have numeral := isNumeral_rendered (isPlain_of_rendered fun member => plain (List.mem_cons_of_mem _ member))
    rw [evaluate_minus numeral rfl, unsignedZero, if_neg (by simpa [Binary64.isZero] using nonzero)]
    rfl

end Numeral

section Exponent

private theorem readToken_exponent {sign : Char} (signs : sign = '-' ∨ sign = '+') (rest : List Char) :
    ∃ fault, readToken 0 'e' (sign :: rest) = .error fault := by
  rcases signs with rfl | rfl <;> exact ⟨_, rfl⟩

private theorem symbols?_of_exponent {sign : Char} (signs : sign = '-' ∨ sign = '+') (rest : List Char) :
    symbols? ('e' :: sign :: rest) = none := by
  obtain ⟨fault, refused⟩ := readToken_exponent signs rest
  have unread : readSymbol? 'e' (sign :: rest) = none := by
    rw [readSymbol?_eq (by decide) (by simp), refused]
    rfl
  rw [symbols?_cons, unread, Option.bind_none]

/-- Behind the digits of a number an exponent cannot be read. -/
theorem symbols?_of_mantissa {mantissa : List Char} {sign : Char} (present : mantissa ≠ [])
    (digits : ∀ c ∈ mantissa, c.isDigit ∨ c = '.') (signs : sign = '-' ∨ sign = '+') (rest : List Char) :
    symbols? (mantissa ++ 'e' :: sign :: rest) = none := by
  cases mantissa with
  | nil => exact absurd rfl present
  | cons c cs =>
    have digit := digits c List.mem_cons_self
    have foreign : ∀ d ∈ '.' :: asciiDigits, d ∉ foreignMarks ∧ d ≠ '/' := forall_of_all (by decide)
    obtain ⟨apart, unslashed⟩ := foreign c (mem_of_digit digit)
    have numerals : (cs ++ 'e' :: sign :: rest).takeWhile isNumeralChar = cs := by
      rw [List.takeWhile_append_of_pos fun d member =>
        isNumeralChar_of_digit (digits d (List.mem_cons_of_mem c member)),
        List.takeWhile_cons_of_neg (by decide), List.append_nil]
    rw [List.cons_append, symbols?_cons, readSymbol?_eq apart fun slash => absurd slash unslashed]
    cases reads : readToken 0 c (cs ++ 'e' :: sign :: rest) with
    | error fault => rfl
    | ok read =>
      obtain ⟨token?, more⟩ := read
      obtain ⟨text, rfl, rfl⟩ := (lexed_of_readToken reads).of_numeral (not_isBlank_of_digit digit)
        (isNumeralChar_of_digit digit)
      simp only [Except.toOption, Option.bind_some]
      cases Symbol.ofToken? ⟨.number, text, 0⟩ with
      | none => rfl
      | some symbol =>
        rw [Option.map_some, Option.bind_some, numerals, List.drop_left, symbols?_of_exponent signs]
        rfl

theorem symbols?_minus (cs : List Char) :
    symbols? ('-' :: cs) = (symbols? cs).map fun symbols => .operator .sub :: symbols := by
  have minus : readSymbol? '-' cs = some (some (.operator .sub), 0) := by
    rw [readSymbol?_eq (by decide) (by simp)]
    rfl
  rw [symbols?_cons, minus, Option.bind_some, List.drop_zero]
  cases symbols? cs <;> rfl

/-- A number with an exponent cannot be read in a formula. -/
theorem symbols?_renderNumber {x : Binary64} (finite : x.isFinite) (exponential : 'e' ∈ renderNumber x)
    (rest : List Char) : symbols? (renderNumber x ++ rest) = none := by
  have magnitude : ∀ m : Magnitude, 'e' ∈ m.rendered → symbols? (m.rendered ++ rest) = none := by
    intro m member
    obtain ⟨mantissa, sign, exponent, text, present, digits, signs, _⟩ :=
      rendered_of_not_isPlain fun plain => not_mem_of_isPlain plain member
    rw [text, List.append_assoc]
    exact symbols?_of_mantissa present digits signs (exponent ++ rest)
  rcases rendered_cases finite with ⟨m, _, text⟩ | ⟨m, _, _, text⟩
  · rw [text] at exponential ⊢
    exact magnitude m exponential
  · rw [text] at exponential ⊢
    have later := magnitude m ((List.mem_cons.mp exponential).resolve_left (by decide))
    rw [List.cons_append, symbols?_minus, later, Option.map_none]

end Exponent

end Formula

end HeroSheet
