import HeroSheet.Proofs.Formula.Settled
import HeroSheet.Proofs.Formula.Simplify
import HeroSheet.Proofs.Text.Severed

/-!
Where a formula mentions the slot level. A level that is put for every mention leaves none, and neither the numbers
that resolving writes nor those of simplifying put one together; a mention comes back only with the text of a
variable, or where a bold marker or braces without a letter give way.
-/

namespace HeroSheet

namespace Formula

open Text

variable {cs text front back count dice : List Char} {x : Binary64}

section Mentions

theorem slotLevelWord_ne_nil : slotLevelWord ≠ [] := List.cons_ne_nil _ _

theorem slotLevelMention_eq_none_iff :
    slotLevelMention none cs = none ↔ ¬ slotLevelWord <+: cs.map foldCase := by
  unfold slotLevelMention
  rw [List.map_take, List.prefix_iff_eq_take, eq_comm (a := slotLevelWord)]
  simp

theorem exists_start_of_isInfix (inside : slotLevelWord <:+: cs.map foldCase) :
    ∃ s, s ≠ [] ∧ s <:+ cs ∧ slotLevelWord <+: s.map foldCase := by
  obtain ⟨t, starts, ends⟩ := List.infix_iff_prefix_suffix.mp inside
  obtain ⟨s, suffix, rfl⟩ := List.suffix_map_iff.mp ends
  refine ⟨s, ?_, suffix, starts⟩
  rintro rfl
  exact slotLevelWord_ne_nil (List.prefix_nil.mp starts)

/-- A formula mentions the slot level where the word stands in it, in any case. -/
theorem mentionsSlotLevel_iff : mentionsSlotLevel cs = true ↔ slotLevelWord <:+: cs.map foldCase := by
  have nowhere : FindsNothing slotLevelMention cs ↔ ¬ slotLevelWord <:+: cs.map foldCase := by
    constructor
    · intro nothing inside
      obtain ⟨s, _, suffix, starts⟩ := exists_start_of_isInfix inside
      exact slotLevelMention_eq_none_iff.mp (nothing s suffix) starts
    · intro absent s suffix
      exact slotLevelMention_eq_none_iff.mpr fun starts => absent (starts.isInfix.trans (suffix.map foldCase).isInfix)
  have found : phrases (pieces slotLevelMention cs) = [] ↔ FindsNothing slotLevelMention cs :=
    ⟨finds_slotLevelMention.findsNothing, finds_slotLevelMention.phrases_eq_nil⟩
  rw [mentionsSlotLevel, Bool.not_eq_true', ← Bool.not_eq_true, List.isEmpty_iff, found, nowhere, not_not]

end Mentions

section Numbers

/-- The characters that start a mention of the slot level. -/
def slotLevelInitials : List Char := ['s', 'S', 'ſ']

/-- A character counts as a small letter when it is that letter, its capital, or the long `s`. -/
theorem eq_of_foldCase {c small : Char} (capital : Char) (shifted : capital.val + ('a'.val - 'A'.val) = small.val)
    (same : foldCase c = small) : c = 'ſ' ∧ small = 's' ∨ c = capital ∨ c = small := by
  unfold foldCase at same
  split at same
  · rename_i long
    exact Or.inl ⟨long, same.symm⟩
  · unfold Char.toLower at same
    split at same
    · have own : c.val + ('a'.val - 'A'.val) = small.val := congrArg Char.val same
      exact Or.inr (Or.inl (Char.ext ((UInt32.add_left_inj _).mp (own.trans shifted.symm))))
    · exact Or.inr (Or.inr same)

private theorem mem_slotLevelInitials {c : Char} (starts : foldCase c = 's') : c ∈ slotLevelInitials := by
  rcases eq_of_foldCase 'S' (by decide) starts with ⟨rfl, _⟩ | rfl | rfl <;> decide

theorem startsNo_of_not_mem (absent : ∀ c ∈ text, c ∉ slotLevelInitials) :
    StartsNo slotLevelWord (text.map foldCase) := by
  intro d member starts
  obtain ⟨c, inside, rfl⟩ := List.mem_map.mp member
  exact absent c inside (mem_slotLevelInitials (Option.some.inj starts).symm)

theorem mentionsSlotLevel_append_iff (absent : ∀ c ∈ text, c ∉ slotLevelInitials) :
    mentionsSlotLevel (text ++ back) = mentionsSlotLevel back := by
  rw [Bool.eq_iff_iff, mentionsSlotLevel_iff, mentionsSlotLevel_iff, List.map_append]
  exact (startsNo_of_not_mem absent).isInfix_append_iff slotLevelWord_ne_nil

/-- A character that is no letter of the word ends no mention. -/
theorem mentionsSlotLevel_concat {d : Char} (other : foldCase d ∉ slotLevelWord) :
    mentionsSlotLevel (cs ++ [d]) = mentionsSlotLevel cs := by
  have last : ¬ slotLevelWord <:+ cs.map foldCase ++ [foldCase d] := by
    intro suffix
    obtain nil | ⟨t, split, _⟩ := List.suffix_concat_iff.mp suffix
    · exact slotLevelWord_ne_nil nil
    · exact other (split ▸ List.mem_concat_self)
  rw [Bool.eq_iff_iff, mentionsSlotLevel_iff, mentionsSlotLevel_iff, List.map_append, List.map_singleton,
    List.infix_concat_iff]
  exact ⟨fun within => within.resolve_left last, Or.inr⟩

theorem not_mentionsSlotLevel (absent : ∀ c ∈ text, c ∉ slotLevelInitials) : mentionsSlotLevel text = false := by
  have alone : mentionsSlotLevel (text ++ []) = mentionsSlotLevel [] := mentionsSlotLevel_append_iff absent
  rwa [List.append_nil] at alone

theorem IsNumberText.not_mem_slotLevelInitials (number : IsNumberText text) : ∀ c ∈ text, c ∉ slotLevelInitials :=
  fun c member => (number.chars c member).of_all (· ∉ slotLevelInitials) (by decide)

/-- A number starts with no letter, so that it parts the word on its sides. -/
theorem IsNumberText.severs_slotLevelWord (number : IsNumberText text) : Severs slotLevelWord (text.map foldCase) := by
  obtain ⟨c, rest, rfl⟩ := List.exists_cons_of_ne_nil number.ne_nil
  refine ⟨List.cons_ne_nil _ _, ?_, startsNo_of_not_mem number.not_mem_slotLevelInitials⟩
  rintro d ⟨⟩
  have outside := (number.chars c List.mem_cons_self).of_all
    (fun d => isNameStart d = false → foldCase d ∉ slotLevelWord) (by decide)
  have words : wordStarts false (c :: rest) = 0 := number.wordStarts_eq_zero
  apply outside
  by_contra letter
  simp [wordStarts, letter] at words

end Numbers

section Substituted

variable {level : Int}

private theorem starts_of_substituteSlotLevel
    (within : slotLevelWord <:+: (front ++ substituteSlotLevel level cs).map foldCase) :
    ∃ s, s ≠ [] ∧ s <:+ front ∧ slotLevelWord <+: (s ++ cs).map foldCase := by
  have before : ∀ {own behind : List Char}, slotLevelWord <:+: own.map foldCase →
      ∃ s, s ≠ [] ∧ s <:+ own ∧ slotLevelWord <+: (s ++ behind).map foldCase := by
    intro own behind inside
    obtain ⟨s, present, suffix, starts⟩ := exists_start_of_isInfix inside
    exact ⟨s, present, suffix, starts.trans ((List.prefix_append s behind).map foldCase)⟩
  unfold substituteSlotLevel at within
  induction cs using finds_slotLevelMention.reading generalizing front with
  | nil => exact before (by simpa [replacePhrases, pieces, piecesFrom, assemble] using within)
  | char c cs nothing ih =>
    rw [finds_slotLevelMention.replacePhrases_of_none nothing, List.append_cons] at within
    obtain ⟨s, present, suffix, starts⟩ := ih within
    rcases List.suffix_concat_iff.mp suffix with rfl | ⟨t, rfl, earlier⟩
    · exact absurd rfl present
    · rw [← List.append_cons] at starts
      refine ⟨t, ?_, earlier, starts⟩
      -- the character alone would start a mention where none is found
      rintro rfl
      exact slotLevelMention_eq_none_iff.mp nothing starts
  | found source phrase back solid _ found ih =>
    rw [finds_slotLevelMention.replacePhrases_of_found solid found, List.map_append, List.map_append] at within
    have number := (isNumberText_integerText level).severs_slotLevelWord
    rcases number.isInfix_of_append slotLevelWord_ne_nil within with inside | behind
    · exact before inside
    · obtain ⟨s, present, suffix, _⟩ := @ih [] behind
      exact absurd (List.suffix_nil.mp suffix) present

/-- No mention is left where a level was put for each. -/
theorem mentionsSlotLevel_substituteSlotLevel (level : Int) (cs : List Char) :
    mentionsSlotLevel (substituteSlotLevel level cs) = false := by
  apply Bool.eq_false_iff.mpr
  intro mentioned
  have within : slotLevelWord <:+: ([] ++ substituteSlotLevel level cs).map foldCase :=
    mentionsSlotLevel_iff.mp mentioned
  obtain ⟨s, present, suffix, _⟩ := starts_of_substituteSlotLevel within
  exact present (List.suffix_nil.mp suffix)

end Substituted

section Simplified

/-- No character of a token starts a mention, and no blank does. -/
theorem Lexed.not_mem_slotLevelInitials {position more : Nat} {c : Char} {token? : Option Token}
    (lexed : Lexed position c cs token? more) : ∀ d ∈ c :: cs.take more, d ∉ slotLevelInitials := by
  have none : ∀ d ∈ slotLevelInitials, isBlank d = false ∧ isNumeralChar d = false ∧ symbolKind? d = none :=
    forall_of_all (by decide)
  cases lexed with
  | blank blank =>
    rw [List.take_zero, List.forall_mem_singleton]
    exact fun listed => by simp [(none c listed).1] at blank
  | number numeral reads =>
    have digits : ∀ d ∈ c :: cs.takeWhile isNumeralChar, isNumeralChar d :=
      List.forall_mem_cons.mpr ⟨numeral, fun d member => List.mem_takeWhile_imp member⟩
    rw [← List.prefix_iff_eq_take.mp (List.takeWhile_prefix isNumeralChar)]
    intro d member listed
    have digit := digits d member
    rw [(none d listed).2.1] at digit
    cases digit
  | mark here =>
    rw [List.take_zero, List.forall_mem_singleton]
    exact fun listed => by simp [(none c listed).2.2] at here
  | @function f qualifier rest qualified written =>
    have letters : ∀ d ∈ qualifier ++ f.name, d ∉ slotLevelInitials := by
      rcases qualified with rfl | rfl <;> cases f <;> exact forall_of_all (by decide)
    rwa [take_function written]

theorem Lexes.not_mem_slotLevelInitials {position : Nat} {tokens : List Token} (lexes : Lexes position cs tokens) :
    ∀ d ∈ cs, d ∉ slotLevelInitials := by
  induction lexes with
  | nil => simp
  | @step position more c cs token? tokens reads others ih =>
    have whole : c :: cs = (c :: cs.take more) ++ cs.drop more := by
      rw [List.cons_append, List.take_append_drop]
    rw [whole]
    exact List.forall_mem_append.mpr ⟨(lexed_of_readToken reads).not_mem_slotLevelInitials, ih⟩

/-- Text that can be evaluated mentions nothing. -/
theorem not_mem_slotLevelInitials_of_evaluate (ok : evaluate cs = .ok x) : ∀ d ∈ cs, d ∉ slotLevelInitials := by
  obtain ⟨_, _, lexes, _⟩ := evaluate_eq_ok_iff.mp ok
  exact lexes.not_mem_slotLevelInitials

private theorem mentionsSlotLevel_withoutFinalNewline (cs : List Char) :
    mentionsSlotLevel (withoutFinalNewline cs) = mentionsSlotLevel cs := by
  unfold withoutFinalNewline
  split
  · rename_i ends
    obtain ⟨line, rfl⟩ := List.getLast?_eq_some_iff.mp ends
    rw [List.dropLast_concat, mentionsSlotLevel_concat (by decide)]
  · rfl

private theorem mentionsSlotLevel_simplifyOnce (cs : List Char) :
    mentionsSlotLevel (simplifyOnce cs) = mentionsSlotLevel cs := by
  rcases simplifyOnce_cases cs with ⟨x, _, ok, eq⟩ | ⟨count, dice, x, rewrites⟩ | eq
  · have number := isNumberText_renderNumber (isFinite_of_evaluate ok)
    rw [eq, not_mentionsSlotLevel number.not_mem_slotLevelInitials,
      not_mentionsSlotLevel (not_mem_slotLevelInitials_of_evaluate ok)]
  · have number := isNumberText_renderNumber (isFinite_of_evaluate rewrites.value)
    obtain ⟨line, _⟩ := of_countAndDice? rewrites.parts
    rw [rewrites.simplifyOnce_eq, mentionsSlotLevel_append_iff number.not_mem_slotLevelInitials,
      ← mentionsSlotLevel_withoutFinalNewline cs, line,
      mentionsSlotLevel_append_iff (not_mem_slotLevelInitials_of_evaluate rewrites.value)]
  · rw [eq]

/-- Simplifying keeps whether the slot level is mentioned. -/
theorem mentionsSlotLevel_simplify (limit : Nat) (cs : List Char) :
    mentionsSlotLevel (simplify limit cs) = mentionsSlotLevel cs := by
  cases limit with
  | zero => rfl
  | succ limit => rw [simplify_succ, mentionsSlotLevel_simplifyOnce]

end Simplified

section Passes

/-- A word that no number is part of, as far as the fold tells its characters apart. -/
structure ApartFromNumbers (word : List Char) (fold : Char → Char) : Prop where
  present : word ≠ []
  severs : ∀ value : Value, value.isNumber → Severs word (value.render.map fold)

private theorem IsNumberText.exists_render (number : IsNumberText text) :
    ∃ value : Value, value.isNumber ∧ value.render = text := by
  rcases number with ⟨n, rfl⟩ | ⟨x, _, rfl⟩
  · exact ⟨.int n, rfl, rfl⟩
  · exact ⟨.real x, rfl, rfl⟩

/-- The texts of numbers that are infinite or undefined. -/
def nonfiniteTexts : List (List Char) := ["inf".toList, "-inf".toList, "nan".toList]

private theorem render_cases {value : Value} (number : value.isNumber) :
    IsNumberText value.render ∨ value.render ∈ nonfiniteTexts := by
  cases value with
  | int n => exact Or.inl (isNumberText_integerText n)
  | real x =>
    cases x with
    | finite negative size => exact Or.inl (isNumberText_renderNumber rfl)
    | infinite negative => cases negative <;> exact Or.inr (by decide)
    | nan => exact Or.inr (by decide)
  | flag | text => cases number

/-- A word is apart from numbers when it is from those that are finite, and from the three other texts. -/
theorem ApartFromNumbers.of_finite {word : List Char} {fold : Char → Char} (present : word ≠ [])
    (finite : ∀ {text}, IsNumberText text → Severs word (text.map fold))
    (others : ∀ text ∈ nonfiniteTexts, Severs word (text.map fold)) : ApartFromNumbers word fold :=
  ⟨present, fun _ number => (render_cases number).elim finite (others _)⟩

theorem slotLevelWord_apart : ApartFromNumbers slotLevelWord foldCase :=
  .of_finite slotLevelWord_ne_nil (fun number => number.severs_slotLevelWord) (forall_of_all (by decide))

private theorem boldMarker_apart : ApartFromNumbers boldMarker id := by
  refine .of_finite (List.cons_ne_nil _ _) (fun {text} number => ?_) (forall_of_all (by decide))
  rw [List.map_id]
  have outside : ∀ d ∈ text, d ∉ boldMarker :=
    fun d member => (number.chars d member).of_all (· ∉ boldMarker) (by decide)
  exact ⟨number.ne_nil, fun d first => outside d (List.mem_of_mem_head? first),
    fun d member starts => outside d member (List.mem_of_mem_head? starts)⟩

variable {word : List Char} {fold : Char → Char}

private theorem ApartFromNumbers.severs_number (apart : ApartFromNumbers word fold) (number : IsNumberText text) :
    Severs word (text.map fold) := by
  obtain ⟨value, numeric, rfl⟩ := number.exists_render
  exact apart.severs value numeric

theorem ApartFromNumbers.severs_filtered (apart : ApartFromNumbers word fold) {value? : Option Value}
    (found : (value?.filter (·.isNumber)).map (·.render) = some text) : Severs word (text.map fold) := by
  obtain ⟨value, numeric, rfl⟩ := Option.map_eq_some_iff.mp found
  exact apart.severs value (Option.filter_eq_some_iff.mp numeric).2

/-- A pass that writes such text puts no such word together. -/
theorem isInfix_of_pass {recognise : Recogniser (List Char)} {opening closing : Char} {inClass : Char → Prop}
    {value? : List Char → Option (List Char)} (finds : Finds recognise (Between opening closing inClass))
    (present : word ≠ [])
    (severs : ∀ phrase ∈ phrases (pieces recognise cs), ∀ text, value? phrase = some text → Severs word (text.map fold))
    (within : word <:+: (replacePhrases recognise
      (fun phrase => (value? phrase).getD (opening :: phrase ++ [closing])) cs).map fold) :
    word <:+: cs.map fold := by
  have each : ∀ phrase ∈ phrases (pieces recognise cs), ∀ source, Between opening closing inClass source phrase →
      (value? phrase).getD (opening :: phrase ++ [closing]) = source ∨
        Severs word (((value? phrase).getD (opening :: phrase ++ [closing])).map fold) := by
    rintro phrase member source ⟨rfl, _⟩
    cases value : value? phrase with
    | none => exact Or.inl rfl
    | some text => exact Or.inr (severs phrase member text value)
  have before : word <:+: ([] ++ cs).map fold := finds.isInfix_of_replacePhrases present each within
  exact before

end Passes

end Formula

namespace Character

open Formula Text

variable {c : Character} {cs : List Char}

/-- The formula behind the passes that write numbers alone. -/
def numbered (c : Character) (cs : List Char) : List Char :=
  c.resolveBrackets (c.resolveParenReferences (c.resolveHashReferences cs))

/-- What brings a mention of the slot level into a formula: the text of the variable that the formula is, or the
joining of what stood around a bold marker or around braces in place of which text without a letter is put. -/
inductive Revives (c : Character) (cs : List Char) : Prop where
  | variable {s : String} (named : c.bareValue? cs = some (.text s)) (mentions : mentionsSlotLevel s.toList = true)
  | joined (unnamed : c.bareValue? cs = none)
      (gap : contains boldMarker cs = true ∨
        ∃ content ∈ phrases (pieces braced (removeAll boldMarker (c.numbered cs))),
          ∃ text, c.braceValue? content = some text ∧ Spliced content text)
      (mentions : mentionsSlotLevel (c.resolveReferences cs) = true)

/-- The passes that write numbers put no word together that numbers have no part of. -/
theorem isInfix_of_numbered {word : List Char} {fold : Char → Char} (apart : ApartFromNumbers word fold)
    (within : word <:+: (c.numbered cs).map fold) : word <:+: cs.map fold := by
  have unbracketed : word <:+: (c.resolveParenReferences (c.resolveHashReferences cs)).map fold :=
    isInfix_of_pass (finds_enclosed '[' ']') apart.present
      (fun _ _ _ found => apart.severs_number (isNumberText_of_bracketValue? found)) within
  have unparenthesized : word <:+: (c.resolveHashReferences cs).map fold :=
    isInfix_of_pass finds_parenReference apart.present (fun _ _ _ => apart.severs_filtered) unbracketed
  exact isInfix_of_pass finds_hashReference apart.present (fun _ _ _ => apart.severs_filtered) unparenthesized

/-- Without such a gap the passes over the references bring no mention. -/
private theorem mentionsSlotLevel_of_resolveReferences (bold : contains boldMarker cs = false)
    (unspliced : ∀ content ∈ phrases (pieces braced (removeAll boldMarker (c.numbered cs))),
      ∀ text, c.braceValue? content = some text → ¬ Spliced content text)
    (mentions : mentionsSlotLevel (c.resolveReferences cs) = true) : mentionsSlotLevel cs = true := by
  have unmarked : contains boldMarker (c.numbered cs) = false := by
    apply Bool.eq_false_iff.mpr
    intro marked
    have before := isInfix_of_numbered boldMarker_apart (by simpa using isInfix_of_contains marked)
    rw [List.map_id] at before
    rw [contains_of_isInfix before] at bold
    cases bold
  have braces : ∀ content ∈ phrases (pieces braced (removeAll boldMarker (c.numbered cs))), ∀ text,
      c.braceValue? content = some text → Severs slotLevelWord (text.map foldCase) := by
    intro content member text found
    rcases cases_of_braceValue? found with number | spliced
    · exact number.severs_slotLevelWord
    · exact absurd spliced (unspliced content member text found)
  have unbraced := isInfix_of_pass (finds_enclosed '{' '}') slotLevelWord_ne_nil braces
    (mentionsSlotLevel_iff.mp mentions)
  rw [removeAll_boldMarker_eq_self unmarked] at unbraced
  exact mentionsSlotLevel_iff.mpr (isInfix_of_numbered slotLevelWord_apart unbraced)

private theorem mentionsSlotLevel_render_iff {value : Value} :
    mentionsSlotLevel value.render = true ↔ ∃ s, value = .text s ∧ mentionsSlotLevel s.toList = true := by
  have silent : value.isNumber → mentionsSlotLevel value.render = false := by
    intro number
    apply Bool.eq_false_iff.mpr
    intro mentions
    have severs := slotLevelWord_apart.severs value number
    exact severs.later.not_isInfix slotLevelWord_ne_nil (mentionsSlotLevel_iff.mp mentions)
  cases value with
  | int n => simp [silent rfl]
  | real x => simp [silent rfl]
  | flag b =>
    have unmentioned : mentionsSlotLevel (Value.flag b).render = false := by cases b <;> decide
    simp [unmentioned]
  | text s => simp [Value.render]

theorem resolve_of_isNamed {value : Value} (slotless : mentionsSlotLevel cs = false)
    (named : c.bareValue? cs = some value) : c.resolve cs = value.render := by
  simp only [resolve, slotless, Bool.false_eq_true, if_false, named]

/-- Resolving brings a mention of the slot level exactly into these formulas. -/
theorem mentionsSlotLevel_resolve_iff (slotless : mentionsSlotLevel cs = false) :
    mentionsSlotLevel (c.resolve cs) = true ↔ c.Revives cs := by
  cases bare : c.bareValue? cs with
  | some value =>
    rw [resolve_of_isNamed slotless bare, mentionsSlotLevel_render_iff]
    constructor
    · rintro ⟨s, rfl, mentions⟩
      exact .variable bare mentions
    · rintro (⟨named, mentions⟩ | ⟨unnamed, _, _⟩)
      · exact ⟨_, Option.some.inj (bare.symm.trans named), mentions⟩
      · cases bare.symm.trans unnamed
  | none =>
    rw [resolve_of_isUnnamed slotless bare]
    constructor
    · intro mentions
      refine .joined bare ?_ mentions
      by_contra gapless
      obtain ⟨bold, unspliced⟩ := not_or.mp gapless
      have before := mentionsSlotLevel_of_resolveReferences (Bool.eq_false_iff.mpr bold)
        (fun content member text found spliced => unspliced ⟨content, member, text, found, spliced⟩) mentions
      rw [slotless] at before
      cases before
    · rintro (⟨named, _⟩ | ⟨_, _, mentions⟩)
      · cases bare.symm.trans named
      · exact mentions

end Character

end HeroSheet
