import HeroSheet.Proofs.Formula.Operand
import HeroSheet.Proofs.Formula.Rendered

namespace HeroSheet

namespace Formula

open PhraseReader

section Replace

variable {room other : Nat} {symbols others rest last : List Symbol} {first own term : Term}
  (alike : Term → Term → Prop)

private theorem reads_sumTerm_replace {inner : TermReader}
    (combines : ∀ op {left other : Term} (right : Term), alike left other →
      alike (.binary op left right) (.binary op other right))
    (starts : Reads inner symbols first rest) (started : Reads inner others own rest) (same : alike first own)
    (reads : Reads (sumTerm inner) symbols term last) :
    ∃ read, Reads (sumTerm inner) others read last ∧ alike term read := by
  refine Reads.chain_replace combines (fun products => ?_) reads
  refine Reads.chain_replace combines (fun factors => ?_) products
  obtain ⟨rfl, rfl⟩ := factors.unique starts
  exact ⟨own, started, same⟩

theorem readTerm?_replace
    (combines : ∀ op {left other : Term} (right : Term), alike left other →
      alike (.binary op left right) (.binary op other right))
    (starts : Reads (factorTerm room) symbols first rest) (started : Reads (factorTerm other) others own rest)
    (same : alike first own) (read : readTerm? symbols = some term) :
    ∃ read, readTerm? others = some read ∧ alike term read := by
  obtain ⟨depth, reads⟩ := readTerm?_eq_some_iff.mp read
  have wide := reads_sumTerm_of_reads reads (Nat.le_add_right _ others.length)
  obtain ⟨read, reads, same⟩ := reads_sumTerm_replace alike combines
    (reads_factorTerm_of_reads starts (Nat.le_add_right _ others.length))
    (reads_factorTerm_of_reads started (Nat.le_add_left _ symbols.length)) same wide
  exact ⟨read, readTerm?_eq_some_iff.mpr ⟨_, reads⟩, same⟩

private theorem total?_replace (faces : Dice.Faces) (starts : Reads (factorTerm room) symbols first rest)
    (started : Reads (factorTerm other) others own rest) (same : first.Alike own) :
    total? faces symbols = total? faces others := by
  have combines := fun op {left other : Term} (right : Term) (same : left.Alike other) => same.binary op right
  unfold total?
  cases read : readTerm? symbols with
  | none =>
    cases again : readTerm? others with
    | none => rfl
    | some term =>
      obtain ⟨back, found, _⟩ := readTerm?_replace Term.Alike combines started starts same.symm again
      rw [read] at found
      cases found
  | some term =>
    obtain ⟨read, found, equal⟩ := readTerm?_replace Term.Alike combines starts started same read
    rw [found, Option.bind_some, Option.bind_some, equal]

theorem total?_eq_none (faces : Dice.Faces) (starts : Reads (factorTerm room) symbols first rest)
    (failed : ∀ before, first.total faces before = none) : total? faces symbols = none := by
  unfold total?
  cases read : readTerm? symbols with
  | none => rfl
  | some term =>
    obtain ⟨_, _, fails⟩ := readTerm?_replace (fun term _ => ∀ before, term.total faces before = none)
      (fun op left _ right fails before => by rw [Term.total, fails]; rfl) starts starts failed read
    exact fails 0

end Replace

section Dice

variable {faces : Dice.Faces} {before sides : Nat} {keeps : List Dice.Keep} {m : Magnitude} {x : Binary64}

/-- A zero of either sign rolls no dice. -/
theorem rollDice?_unsignedZero :
    rollDice? faces before (unsignedZero x) sides keeps = rollDice? faces before x sides keeps := by
  by_cases zero : x.isZero
  · cases x with
    | infinite | nan => cases zero
    | finite negative m =>
      have units : m.units = 0 := of_decide_eq_true zero
      have whole := Magnitude.isWhole_of_units_eq_zero units
      have floor := Magnitude.floor_of_units_eq_zero units
      have wholeZero := Magnitude.isWhole_of_units_eq_zero (m := .zero) rfl
      have floorZero := Magnitude.floor_of_units_eq_zero (m := .zero) rfl
      rw [unsignedZero, if_pos zero]
      cases negative <;>
        simp [rollDice?, Binary64.zero, Binary64.isWhole, Binary64.truncate?, whole, floor, wholeZero, floorZero]
  · rw [unsignedZero, if_neg zero]

private theorem finite?_neg {total : Binary64} (finite : finite? x = some total) :
    finite? (-total) = some (-total) := by
  unfold finite? at finite ⊢
  split at finite
  · rename_i real
    obtain rfl := Option.some.inj finite
    refine if_pos ?_
    cases x with
    | finite => rfl
    | infinite | nan => cases real
  · cases finite

theorem rollDice?_of_truncate? {n : Int} (whole : x.isWhole) (truncated : x.truncate? = some n) :
    rollDice? faces before x sides keeps =
      (Dice.Pool.roll faces before ⟨n.natAbs, sides, keeps⟩).toOption.bind fun read =>
        (finite? (.ofInt read.1.total)).map fun total => (if n < 0 then -total else total, read.2) := by
  rw [rollDice?, if_pos whole, truncated, Option.bind_some]

private theorem rollDice?_negative (nonzero : m.units ≠ 0) :
    rollDice? faces before (.finite true m) sides keeps =
      (rollDice? faces before (.finite false m) sides keeps).bind fun read =>
        (finite? (-read.1)).map fun total => (total, read.2) := by
  by_cases whole : m.isWhole
  · have positive := Magnitude.floor_pos whole nonzero
    have wholeBelow : (Binary64.finite true m).isWhole := whole
    have wholeAbove : (Binary64.finite false m).isWhole := whole
    have below : (Binary64.finite true m).truncate? = some (-(m.floor : Int)) := rfl
    have above : (Binary64.finite false m).truncate? = some (m.floor : Int) := rfl
    rw [rollDice?_of_truncate? wholeBelow below, rollDice?_of_truncate? wholeAbove above, Int.natAbs_neg]
    generalize m.floor = n at positive
    cases (Dice.Pool.roll faces before ⟨(n : Int).natAbs, sides, keeps⟩).toOption with
    | none => rfl
    | some read =>
      rw [Option.bind_some, Option.bind_some]
      cases real : finite? (.ofInt read.1.total) with
      | none => rfl
      | some total =>
        rw [Option.map_some, Option.map_some, Option.bind_some, if_pos (by omega), if_neg (by omega),
          finite?_neg real, Option.map_some]
  · have below : ¬ (Binary64.finite true m).isWhole := whole
    have above : ¬ (Binary64.finite false m).isWhole := whole
    rw [rollDice?, if_neg below, rollDice?, if_neg above, Option.bind_none]

private theorem symbols?_die {dice : List Char} (starts : startsDie dice) :
    ∃ sides keeps rest, symbols? dice = (symbols? rest).map fun symbols => .die sides keeps :: symbols := by
  cases dice with
  | nil => cases starts
  | cons c cs =>
    have die : ∃ sides keeps width, readDie? (c :: cs) = some (.die sides keeps, width) := by
      rw [readDie?, if_pos starts]
      exact ⟨_, _, _, rfl⟩
    obtain ⟨sides, keeps, width, die⟩ := die
    have here : readSymbol? c cs = some (some (.die sides keeps), width - 1) := by
      unfold readSymbol?
      rw [die]
    refine ⟨sides, keeps, cs.drop (width - 1), ?_⟩
    rw [symbols?_cons, here, Option.bind_some]
    cases symbols? (cs.drop (width - 1)) <;> rfl

end Dice

/-- Symbols before a die are its count, of the given value. -/
def Counts (front : List Symbol) (x : Binary64) : Prop :=
  ∀ sides keeps more, ∃ room term, Reads (factorTerm room) (front ++ .die sides keeps :: more) term more ∧
    ∀ faces before, term.total faces before = rollDice? faces before x sides keeps

section Counts

variable {front other : List Symbol} {m : Magnitude} {x : Binary64}

/-- Only the value of a count matters. -/
theorem Counts.total?_eq (counts : Counts front x) (same : Counts other x) (faces : Dice.Faces) (sides : Nat)
    (keeps : List Dice.Keep) (more : List Symbol) :
    total? faces (front ++ .die sides keeps :: more) = total? faces (other ++ .die sides keeps :: more) := by
  obtain ⟨_, _, starts, total⟩ := counts sides keeps more
  obtain ⟨_, _, started, equal⟩ := same sides keeps more
  exact total?_replace faces starts started fun faces before => (total faces before).trans (equal faces before).symm

theorem Counts.total?_eq_none (counts : Counts front x) (fraction : ¬ x.isWhole) (faces : Dice.Faces)
    (sides : Nat) (keeps : List Dice.Keep) (more : List Symbol) :
    total? faces (front ++ .die sides keeps :: more) = none := by
  obtain ⟨_, _, starts, total⟩ := counts sides keeps more
  refine Formula.total?_eq_none faces starts fun before => ?_
  rw [total, rollDice?, if_neg fraction]

/-- An operand counts as often as its value says. -/
theorem Operand.counts {room : Nat} {tokens : List Token} {e : Expr} (operand : Operand (factor room) tokens e [])
    (sound : ∀ token ∈ tokens, token.Sound) (value : e.value = .ok x) : Counts (tokens.map Token.symbol) x := by
  intro sides keeps more
  have factor : Factor (factorTerm room) (tokens.map Token.symbol ++ .die sides keeps :: more)
      (.dice e.term sides keeps) more :=
    operand.follow (takesPhrases_factor room) (follows_factor room _) sound rfl
  refine ⟨room + 1, _, factor.reads, fun faces before => ?_⟩
  rw [Term.total, total_term faces before e value]
  rfl

theorem reads_number_die (value : Binary64) (room sides : Nat) (keeps : List Dice.Keep) (more : List Symbol) :
    Reads (factorTerm (room + 1)) (.number value :: .die sides keeps :: more)
      (.dice (.number value) sides keeps) more :=
  Factor.reads (.number rfl)

theorem total_number_die (faces : Dice.Faces) (before sides : Nat) (keeps : List Dice.Keep) (finite : x.isFinite) :
    (Term.dice (.number x) sides keeps).total faces before = rollDice? faces before x sides keeps := by
  rw [Term.total, Term.total, finite?, if_pos finite]
  rfl

private theorem counts_unsigned (same : unsignedZero x = .finite false m) : Counts [.number (.finite false m)] x := by
  intro sides keeps more
  refine ⟨1, _, reads_number_die _ 0 sides keeps more, fun faces before => ?_⟩
  rw [total_number_die faces before sides keeps rfl, ← same, rollDice?_unsignedZero]

private theorem counts_negative (nonzero : m.units ≠ 0) :
    Counts [.operator .sub, .number (.finite false m)] (.finite true m) := by
  intro sides keeps more
  refine ⟨2, _, Factor.reads (.minus (reads_number_die _ 0 sides keeps more)), fun faces before => ?_⟩
  rw [Term.total, total_number_die faces before sides keeps rfl, rollDice?_negative nonzero]
  rfl

end Counts

section Count

variable {cs dice : List Char} {m : Magnitude} {x : Binary64}

theorem head_of_startsDie (starts : startsDie dice) : ∃ c rest, dice = c :: rest ∧ (c = 'd' ∨ c = 'D') := by
  cases dice with
  | nil => cases starts
  | cons c rest =>
    cases rest with
    | nil => cases starts
    | cons d rest => exact ⟨c, _, rfl, by simpa using (Bool.and_eq_true_iff.mp starts).1⟩

theorem parted_of_startsDie (starts : startsDie dice)
    (letters : (∀ d ∈ cs, isNameless d) ∨ ∀ last ∈ cs.getLast?, isLetter last = false ∧ last ≠ '.') :
    Parted cs dice := by
  obtain ⟨d, rest, rfl, marks⟩ := head_of_startsDie starts
  refine ⟨fun c here => ?_, fun _ _ _ => letters⟩
  obtain rfl := Option.some.inj here
  rcases marks with rfl | rfl <;> decide

theorem IsOperand.parted (single : IsOperand cs) (starts : startsDie dice) : Parted cs dice := by
  refine parted_of_startsDie starts ?_
  rcases single with ⟨_, digits⟩ | ⟨name, _, inner, rfl, _⟩
  · exact Or.inl fun d member => by simp [isNameless, isNumeralChar, isAnyDigit, digits d member]
  · refine Or.inr fun last ends => ?_
    rw [← List.cons_append, ← List.append_assoc, List.getLast?_concat] at ends
    obtain rfl := Option.some.inj ends
    decide

theorem symbols?_rendered (plain : m.IsPlain) (starts : startsDie dice) :
    symbols? (m.rendered ++ dice) = (symbols? dice).map fun symbols => .number (.finite false m) :: symbols := by
  have numeral := isNumeral_rendered plain
  have nameless : ∀ d ∈ m.rendered, isNameless d := fun d member => by
    simp [isNameless, isNumeralChar_of_digit (numeral.chars d member)]
  rw [(lexes_numeral numeral rfl 0).symbols? (.singleton _) (parted_of_startsDie starts (Or.inl nameless)),
    List.map_singleton, (means_numeral numeral 0).symbol_eq]
  rfl

/-- The value of an operand may stand for the operand as the count of dice. -/
theorem total?_count (faces : Dice.Faces) (single : IsOperand cs) (ok : evaluate cs = .ok x)
    (starts : startsDie dice) :
    (symbols? (renderNumber x ++ dice)).bind (total? faces) = (symbols? (cs ++ dice)).bind (total? faces) := by
  obtain ⟨tokens, e, lexes, parsed, value⟩ := evaluate_eq_ok_iff.mp ok
  have reads := reads_of_parse parsed
  have operand : Operand (factor 31) tokens e [] := operand_of_isOperand single lexes reads
  have counts := operand.counts lexes.sound value
  have finite := isFinite_of_value value
  obtain ⟨sides, keeps, rest, die⟩ := symbols?_die starts
  rw [lexes.symbols? (phrased_of_reads lexes reads).slashes (single.parted starts)]
  by_cases plain : 'e' ∈ renderNumber x
  · rw [symbols?_renderNumber finite plain, die, Option.bind_none]
    cases symbols? rest with
    | none => rfl
    | some more => exact (counts.total?_eq_none (not_isWhole_of_exponent finite plain) faces sides keeps more).symm
  · obtain ⟨front, written, same⟩ : ∃ front, symbols? (renderNumber x ++ dice) =
        (symbols? dice).map (fun symbols => front ++ symbols) ∧ Counts front x := by
      rcases rendered_cases finite with ⟨m, same, text⟩ | ⟨m, rfl, nonzero, text⟩
      · rw [text] at plain ⊢
        exact ⟨[_], symbols?_rendered (isPlain_of_rendered plain) starts, counts_unsigned same⟩
      · rw [text] at plain ⊢
        have unsigned := isPlain_of_rendered fun member => plain (List.mem_cons_of_mem _ member)
        refine ⟨_, ?_, counts_negative nonzero⟩
        rw [List.cons_append, symbols?_minus, symbols?_rendered unsigned starts, Option.map_map]
        rfl
    rw [written, die]
    cases symbols? rest with
    | none => rfl
    | some more => exact same.total?_eq counts faces sides keeps more

end Count

end Formula

end HeroSheet
