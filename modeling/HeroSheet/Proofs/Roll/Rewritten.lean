import HeroSheet.Proofs.Roll.AdvantageSpent

/-!
Single d20s written anew. The advantage step writes other dice for every single d20, each in its place, and nothing
else. The dice end in a `1`, so a d20 that directly follows a single one is read as one afterwards, and no other is.
-/

namespace HeroSheet

namespace Formula

open Text

/-- A single d20 as it is written, with its count or without it. -/
def d20Text (counted : Bool) : List Char := if counted then ['1', 'd', '2', '0'] else ['d', '2', '0']

/-- A d20 stands between the two parts of the text, with no digit before it. -/
structure Occurs (before : Option Char) (cs front : List Char) (counted : Bool) (back : List Char) : Prop where
  parts : cs = front ++ (d20Text counted ++ back)
  apart : noDigit (front.getLast?.or before)

/-- The second text is the first with the dice in place of its single d20s, all of them and nothing else. The pieces
are the characters that stay and the d20s that do not. -/
def RewritesD20s (dice cs out : List Char) : Prop :=
  ∃ ps : List (Piece Bool), assemble d20Text ps = cs ∧ assemble (fun _ => dice) ps = out ∧
    ∀ front counted back, Occurs none cs front counted back ∧ noDigit back.head? ↔
      ∃ ahead behind, ps = ahead ++ .found counted :: behind ∧
        assemble d20Text ahead = front ∧ assemble d20Text behind = back

/-- Some d20 of the text has no digit before it and is followed as it should be. -/
def Reaches (behind : List Char → Prop) (before : Option Char) (cs : List Char) : Prop :=
  ∃ front counted back, Occurs before cs front counted back ∧ behind back

/-- A d20 without a count, and no digit behind it, is next. -/
def StartsBare (cs : List Char) : Prop := ∃ back, cs = d20Text false ++ back ∧ noDigit back.head?

/-- A d20 without a count directly follows a single d20. -/
def HasAdjoinedD20 (cs : List Char) : Prop := Reaches StartsBare none cs

section Occurs

variable {before : Option Char} {cs front back : List Char} {counted : Bool} {c : Char} {behind : List Char → Prop}

theorem occurs_nil : ¬ Occurs before [] front counted back := by
  rintro ⟨parts, _⟩
  cases counted <;> simp [d20Text] at parts

theorem occurs_cons :
    Occurs before (c :: cs) front counted back ↔
      (front = [] ∧ c :: cs = d20Text counted ++ back ∧ noDigit before) ∨
      ∃ later, front = c :: later ∧ Occurs (some c) cs later counted back := by
  constructor
  · rintro ⟨parts, apart⟩
    cases front with
    | nil => exact Or.inl ⟨rfl, parts, apart⟩
    | cons d later =>
      obtain ⟨rfl, rest⟩ := List.cons.inj parts
      rw [getLast?_cons_or] at apart
      exact Or.inr ⟨later, rfl, rest, apart⟩
  · rintro (⟨rfl, parts, apart⟩ | ⟨later, rfl, parts, apart⟩)
    · exact ⟨parts, apart⟩
    · exact ⟨congrArg (c :: ·) parts, by rwa [getLast?_cons_or]⟩

/-- A single d20 is one place to find one, and no other is within it. -/
theorem occurs_d20Text {own : Bool} :
    Occurs before (d20Text own ++ cs) front counted back ↔
      (front = [] ∧ own = counted ∧ cs = back ∧ noDigit before) ∨
      ∃ later, front = d20Text own ++ later ∧ Occurs (some '0') cs later counted back := by
  have one : noDigit (some '1') = false := by decide
  have two : noDigit (some '2') = false := by decide
  cases own <;> cases counted <;> simp [d20Text, occurs_cons, one, two]

theorem reaches_nil : ¬ Reaches behind before [] := by
  rintro ⟨front, counted, back, occurs, _⟩
  exact occurs_nil occurs

theorem reaches_cons :
    Reaches behind before (c :: cs) ↔
      (noDigit before ∧ ∃ counted back, c :: cs = d20Text counted ++ back ∧ behind back) ∨
      Reaches behind (some c) cs := by
  unfold Reaches
  constructor
  · rintro ⟨front, counted, back, occurs, follows⟩
    rcases occurs_cons.mp occurs with ⟨_, here, apart⟩ | ⟨later, _, occurs⟩
    · exact Or.inl ⟨apart, counted, back, here, follows⟩
    · exact Or.inr ⟨later, counted, back, occurs, follows⟩
  · rintro (⟨apart, counted, back, here, follows⟩ | ⟨later, counted, back, occurs, follows⟩)
    · exact ⟨[], counted, back, occurs_cons.mpr (Or.inl ⟨rfl, here, apart⟩), follows⟩
    · exact ⟨c :: later, counted, back, occurs_cons.mpr (Or.inr ⟨later, rfl, occurs⟩), follows⟩

private theorem reaches_d20Text {own : Bool} :
    Reaches behind before (d20Text own ++ cs) ↔ (noDigit before ∧ behind cs) ∨ Reaches behind (some '0') cs := by
  unfold Reaches
  constructor
  · rintro ⟨front, counted, back, occurs, follows⟩
    rcases occurs_d20Text.mp occurs with ⟨_, _, rfl, apart⟩ | ⟨later, _, occurs⟩
    · exact Or.inl ⟨apart, follows⟩
    · exact Or.inr ⟨later, counted, back, occurs, follows⟩
  · rintro (⟨apart, follows⟩ | ⟨later, counted, back, occurs, follows⟩)
    · exact ⟨[], own, cs, occurs_d20Text.mpr (Or.inl ⟨rfl, rfl, rfl, apart⟩), follows⟩
    · exact ⟨_, counted, back, occurs_d20Text.mpr (Or.inr ⟨later, rfl, occurs⟩), follows⟩

private theorem hasD20_iff : HasD20 cs ↔ Reaches (fun back => noDigit back.head?) none cs := by
  constructor
  · rintro (⟨front, back, parts, apart, ends⟩ | ⟨front, back, parts, apart, ends⟩)
    · exact ⟨front, true, back, ⟨parts, by rwa [Option.or_none]⟩, ends⟩
    · exact ⟨front, false, back, ⟨parts, by rwa [Option.or_none]⟩, ends⟩
  · rintro ⟨front, counted, back, ⟨parts, apart⟩, ends⟩
    rw [Option.or_none] at apart
    cases counted with
    | true => exact Or.inl ⟨front, back, parts, apart, ends⟩
    | false => exact Or.inr ⟨front, back, parts, apart, ends⟩

instance (cs : List Char) : Decidable (HasD20 cs) :=
  decidable_of_iff (¬ ((phrases (pieces countedD20 cs)).isEmpty ∧ (phrases (pieces bareD20 cs)).isEmpty)) <| by
    rw [List.isEmpty_iff, List.isEmpty_iff, countedD20, bareD20, phrases_standalone_eq_nil_iff (by decide),
      phrases_standalone_eq_nil_iff (by decide), ← not_or, not_not]
    rfl

theorem singleD20_eq_some_iff {read : Unit × Nat} :
    singleD20 before cs = some read ↔
      ∃ counted back, read = ((), (d20Text counted).length) ∧ noDigit before ∧ cs = d20Text counted ++ back ∧
        noDigit back.head? := by
  constructor
  · intro found
    rcases Option.or_eq_some_iff.mp found with here | ⟨_, here⟩
    · obtain ⟨width, apart, back, parts, ends⟩ := standalone_eq_some_iff.mp here
      exact ⟨true, back, width, apart, parts, ends⟩
    · obtain ⟨width, apart, back, parts, ends⟩ := standalone_eq_some_iff.mp here
      exact ⟨false, back, width, apart, parts, ends⟩
  · rintro ⟨counted, back, rfl, apart, rfl, ends⟩
    cases counted with
    | true =>
      have here : countedD20 before (d20Text true ++ back) = some ((), 4) :=
        standalone_eq_some_iff.mpr ⟨rfl, apart, back, rfl, ends⟩
      rw [singleD20, here]
      rfl
    | false =>
      have uncounted : countedD20 before (d20Text false ++ back) = none := by
        simp [countedD20, standalone, d20Text, List.isPrefixOf]
      have here : bareD20 before (d20Text false ++ back) = some ((), 3) :=
        standalone_eq_some_iff.mpr ⟨rfl, apart, back, rfl, ends⟩
      rw [singleD20, uncounted, here]
      rfl

end Occurs

/-- Pieces of a text whose d20s are the single ones, all of them. -/
inductive Cut : Option Char → List (Piece Bool) → Prop
  | nil {before} : Cut before []
  | die {before counted ps} (apart : noDigit before) (ends : noDigit (assemble d20Text ps).head?)
      (later : Cut (some '0') ps) : Cut before (.found counted :: ps)
  | char {before c ps}
      (other : ∀ counted back, noDigit before → noDigit back.head? → c :: assemble d20Text ps ≠ d20Text counted ++ back)
      (later : Cut (some c) ps) : Cut before (.char c :: ps)

section Cut

variable {before : Option Char} {cs dice : List Char} {ps : List (Piece Bool)} {c : Char} {counted : Bool}

@[simp] theorem assemble_char {write : Bool → List Char} : assemble write (.char c :: ps) = c :: assemble write ps :=
  rfl

@[simp] theorem assemble_found {write : Bool → List Char} :
    assemble write (.found counted :: ps) = write counted ++ assemble write ps :=
  rfl

/-- One reading of a text cuts all its single d20s out. -/
theorem exists_cut (dice : List Char) (before : Option Char) (cs : List Char) :
    ∃ ps, Cut before ps ∧ assemble d20Text ps = cs ∧
      assemble (fun _ => dice) ps = replacedFrom singleD20 dice before cs := by
  -- On the length, for a d20 that is cut out takes more than one character.
  induction size : cs.length using Nat.strongRecOn generalizing before cs with
  | ind size ih =>
    subst size
    cases cs with
    | nil => exact ⟨[], .nil, rfl, by rw [replacedFrom_nil]; rfl⟩
    | cons c cs =>
      cases found : singleD20 before (c :: cs) with
      | some read =>
        obtain ⟨counted, back, rfl, apart, parts, ends⟩ := singleD20_eq_some_iff.mp found
        have present : d20Text counted ≠ [] := by cases counted <;> decide
        have last : (d20Text counted).getLast? = some '0' := by cases counted <;> rfl
        have shorter : back.length < (c :: cs).length := by
          rw [parts, List.length_append]
          have := List.length_pos_iff.mpr present
          omega
        obtain ⟨ps, cut, source, written⟩ := ih _ shorter (some '0') back rfl
        refine ⟨.found counted :: ps, .die apart (by rwa [source]) cut, ?_, ?_⟩
        · rw [assemble_found, source, parts]
        · rw [parts] at found ⊢
          rw [assemble_found, written, replacedFrom_of_found present found, last]
      | none =>
        obtain ⟨ps, cut, source, written⟩ := ih cs.length (Nat.lt_succ_self _) (some c) cs rfl
        refine ⟨.char c :: ps, .char ?_ cut, by rw [assemble_char, source], ?_⟩
        · intro counted back apart ends parts
          rw [source] at parts
          have single := singleD20_eq_some_iff.mpr ⟨counted, back, rfl, apart, parts, ends⟩
          rw [found] at single
          cases single
        · rw [assemble_char, written, replacedFrom_of_none found]

/-- The single d20s of a text are those that its pieces have, each in its place. -/
private theorem Cut.occurs_iff (cut : Cut before ps) {front back : List Char} :
    Occurs before (assemble d20Text ps) front counted back ∧ noDigit back.head? ↔
      ∃ ahead behind, ps = ahead ++ .found counted :: behind ∧
        assemble d20Text ahead = front ∧ assemble d20Text behind = back := by
  induction cut generalizing front with
  | nil =>
    constructor
    · rintro ⟨occurs, _⟩
      exact absurd occurs occurs_nil
    · rintro ⟨ahead, behind, none, _⟩
      exact absurd none.symm (List.append_ne_nil_of_right_ne_nil ahead (List.cons_ne_nil _ _))
  | @die before own ps apart ends later ih =>
    rw [assemble_found, occurs_d20Text]
    constructor
    · rintro ⟨⟨rfl, rfl, rfl, _⟩ | ⟨front, rfl, occurs⟩, alone⟩
      · exact ⟨[], ps, rfl, rfl, rfl⟩
      · obtain ⟨ahead, behind, rfl, rfl, rfl⟩ := ih.mp ⟨occurs, alone⟩
        exact ⟨.found own :: ahead, behind, rfl, rfl, rfl⟩
    · rintro ⟨ahead, behind, eq, rfl, rfl⟩
      cases ahead with
      | nil =>
        obtain ⟨same, rfl⟩ := List.cons.inj eq
        obtain rfl := Piece.found.inj same
        exact ⟨Or.inl ⟨rfl, rfl, rfl, apart⟩, ends⟩
      | cons piece ahead =>
        obtain ⟨rfl, rfl⟩ := List.cons.inj eq
        obtain ⟨occurs, alone⟩ := ih.mpr ⟨ahead, behind, rfl, rfl, rfl⟩
        exact ⟨Or.inr ⟨_, rfl, occurs⟩, alone⟩
  | @char before c ps other later ih =>
    rw [assemble_char, occurs_cons]
    constructor
    · rintro ⟨⟨rfl, here, apart⟩ | ⟨front, rfl, occurs⟩, alone⟩
      · exact absurd here (other counted back apart alone)
      · obtain ⟨ahead, behind, rfl, rfl, rfl⟩ := ih.mp ⟨occurs, alone⟩
        exact ⟨.char c :: ahead, behind, rfl, rfl, rfl⟩
    · rintro ⟨ahead, behind, eq, rfl, rfl⟩
      cases ahead with
      | nil =>
        obtain ⟨same, _⟩ := List.cons.inj eq
        cases same
      | cons piece ahead =>
        obtain ⟨rfl, rfl⟩ := List.cons.inj eq
        obtain ⟨occurs, alone⟩ := ih.mpr ⟨ahead, behind, rfl, rfl, rfl⟩
        exact ⟨Or.inr ⟨_, rfl, occurs⟩, alone⟩

private theorem rewritesD20s_withDice (dice cs : List Char) : RewritesD20s dice cs (withDice dice cs) := by
  obtain ⟨ps, cut, source, written⟩ := exists_cut dice none cs
  refine ⟨ps, source, written, fun front counted back => ?_⟩
  rw [← source]
  exact cut.occurs_iff

/-- Behind a digit no single d20 is cut out. -/
theorem Cut.of_digit (cut : Cut before ps) (digit : noDigit before = false) :
    ps = [] ∨ ∃ c later, ps = .char c :: later ∧ Cut (some c) later := by
  cases cut with
  | nil => exact Or.inl rfl
  | die apart => simp [digit] at apart
  | char _ later => exact Or.inr ⟨_, _, rfl, later⟩

end Cut

section Rewritten

variable {state : Advantage} {dice cs : List Char} {before own : Option Char} {ps : List (Piece Bool)}
  {behind : List Char → Prop}

/-- The sides of a d20, and no digit behind them, are next. -/
def StartsTwenty (cs : List Char) : Prop := ∃ back, cs = '2' :: '0' :: back ∧ noDigit back.head?

theorem startsBare_cons {c : Char} : StartsBare (c :: cs) ↔ c = 'd' ∧ StartsTwenty cs := by
  simp [StartsBare, StartsTwenty, d20Text, and_assoc]

private theorem Cut.head?_eq (cut : Cut before ps) (digit : noDigit before = false) :
    (assemble (fun _ => dice) ps).head? = (assemble d20Text ps).head? := by
  rcases cut.of_digit digit with rfl | ⟨c, later, rfl, _⟩
  · rfl
  · rfl

variable (rewritten : state.dice = some dice)
include rewritten

/-- What is written makes no sides of a d20 that were not there. -/
theorem Cut.startsTwenty_iff (cut : Cut before ps) :
    StartsTwenty (assemble (fun _ => dice) ps) ↔ StartsTwenty (assemble d20Text ps) := by
  cases cut with
  | nil => exact Iff.rfl
  | @die _ counted ps =>
    refine iff_of_false ?_ ?_
    · rintro ⟨back, eq, _⟩
      rcases dice_eq rewritten with rfl | rfl <;> cases eq
    · rintro ⟨back, eq, _⟩
      cases counted <;> cases eq
  | @char _ c ps other later =>
    rw [assemble_char, assemble_char]
    by_cases two : c = '2'
    · subst two
      rcases later.of_digit (by decide) with rfl | ⟨d, rest, rfl, last⟩
      · exact Iff.rfl
      · rw [assemble_char, assemble_char]
        by_cases zero : d = '0'
        · subst zero
          have same : (assemble (fun _ => dice) rest).head? = _ := last.head?_eq (by decide)
          simp [StartsTwenty, same]
        · simp [StartsTwenty, zero]
    · simp [StartsTwenty, two]

theorem Cut.startsBare_iff (cut : Cut before ps) (digit : noDigit before = false) :
    StartsBare (assemble (fun _ => dice) ps) ↔ StartsBare (assemble d20Text ps) := by
  rcases cut.of_digit digit with rfl | ⟨c, rest, rfl, later⟩
  · exact Iff.rfl
  · rw [assemble_char, assemble_char, startsBare_cons, startsBare_cons, later.startsTwenty_iff rewritten]

/-- In front of what is written a character that starts no single d20 starts none either. -/
private theorem Cut.not_here_of_char {c : Char} (later : Cut (some c) ps)
    (other : ∀ counted back, noDigit before → noDigit back.head? → c :: assemble d20Text ps ≠ d20Text counted ++ back) :
    ¬ (noDigit before ∧ ∃ counted back,
      c :: assemble (fun _ => dice) ps = d20Text counted ++ back ∧ noDigit back.head?) := by
  rintro ⟨apart, counted, back, eq, ends⟩
  cases counted with
  | true =>
    obtain ⟨rfl, rest⟩ := List.cons.inj eq
    obtain ⟨back, same, ends⟩ := (later.startsBare_iff rewritten (by decide)).mp ⟨back, rest, ends⟩
    exact other true back apart ends (congrArg ('1' :: ·) same)
  | false =>
    obtain ⟨rfl, rest⟩ := List.cons.inj eq
    obtain ⟨back, same, ends⟩ := (later.startsTwenty_iff rewritten).mp ⟨back, rest, ends⟩
    exact other false back apart ends (congrArg ('d' :: ·) same)

/-- In the dice that are written only the last character may be the count of a d20. -/
private theorem reaches_dice :
    Reaches behind own (dice ++ cs) ↔
      (∃ back, cs = d20Text false ++ back ∧ behind back) ∨ Reaches behind (some '1') cs := by
  have two : noDigit (some '2') = false := by decide
  have letters : noDigit (some 'h') ∧ noDigit (some 'l') := by decide
  rcases dice_eq rewritten with rfl | rfl <;>
    simp [reaches_cons, d20Text, two, letters]

/-- A d20 that was not single, and is after the dice are written, directly follows a single one. -/
private theorem Cut.reaches_iff (cut : Cut before ps) (same : noDigit own = noDigit before) :
    Reaches (fun back => noDigit back.head?) own (assemble (fun _ => dice) ps) ↔
      Reaches StartsBare before (assemble d20Text ps) := by
  induction cut generalizing own with
  | nil => exact iff_of_false reaches_nil reaches_nil
  | @die before counted ps apart ends later ih =>
    rw [assemble_found, assemble_found, reaches_dice rewritten, reaches_d20Text, ih (by decide)]
    -- The dice end in a count for a d20 behind them, which was a d20 behind a d20.
    have bare := later.startsBare_iff rewritten (by decide)
    exact or_congr (bare.trans (and_iff_right apart).symm) Iff.rfl
  | @char before c ps other later ih =>
    rw [assemble_char, assemble_char, reaches_cons, reaches_cons, ih rfl, same]
    refine or_congr (iff_of_false (later.not_here_of_char rewritten other) ?_) Iff.rfl
    rintro ⟨apart, counted, back, eq, rest, rfl, _⟩
    exact other counted _ apart rfl eq

private theorem hasD20_withDice_iff : HasD20 (withDice dice cs) ↔ HasAdjoinedD20 cs := by
  obtain ⟨ps, cut, source, written⟩ := exists_cut dice none cs
  have out : withDice dice cs = assemble (fun _ => dice) ps := written.symm
  rw [hasD20_iff, out, HasAdjoinedD20, ← source]
  exact cut.reaches_iff rewritten rfl

end Rewritten

end Formula

namespace Session

open Formula

/-- With advantage or disadvantage a formula has the dice in place of its single d20s, all of them and nothing else,
and is left with one exactly where a d20 directly follows a single one. The advantage is spent, and noted once, when
there is a single d20; else nothing changes. -/
theorem applyAdvantage_rewrites (s : Session) (held : s.advantage ≠ .normal) (formula : String) (notes : List String) :
    ∃ dice, s.advantage.dice = some dice ∧
      RewritesD20s dice formula.toList (s.applyAdvantage formula notes).formula.toList ∧
      (HasD20 (s.applyAdvantage formula notes).formula.toList ↔ HasAdjoinedD20 formula.toList) ∧
      (HasD20 formula.toList →
        (s.applyAdvantage formula notes).notes = notes ++ [s.advantage.note] ∧
        (s.applyAdvantage formula notes).session = { s with advantage := .normal }) ∧
      (¬ HasD20 formula.toList → s.applyAdvantage formula notes = ⟨formula, notes, s⟩) := by
  obtain ⟨dice, rewritten⟩ := exists_dice held
  let request : RollRequest := ⟨"", formula, .check, notes, none⟩
  refine ⟨dice, rewritten, ?_, ?_, ?_, ?_⟩
  · rw [applyAdvantage_formula rewritten, String.toList_ofList]
    exact rewritesD20s_withDice dice formula.toList
  · rw [applyAdvantage_formula rewritten, String.toList_ofList]
    exact hasD20_withDice_iff rewritten
  · intro present
    have made : request.advantaged s = _ := advantaged_of_hasD20 rewritten present
    exact ⟨congrArg (·.1.annotations) made, congrArg Prod.snd made⟩
  · intro absent
    have made : request.advantaged s = (request, s) := advantaged_of_not_hasD20 absent
    have sameFormula : (s.applyAdvantage formula notes).formula = formula := congrArg (·.1.formula) made
    have sameNotes : (s.applyAdvantage formula notes).notes = notes := congrArg (·.1.annotations) made
    have sameSession : (s.applyAdvantage formula notes).session = s := congrArg Prod.snd made
    exact congr (congrArg₂ Advantaged.mk sameFormula sameNotes) sameSession

/-- A d20 that directly follows a single one takes the end of the dice for its count. -/
theorem hasD20_applyAdvantage_adjoined :
    let s : Session := { empty with advantage := .advantage }
    s.advantage ≠ .normal ∧ (s.applyAdvantage "1d20d20" []).formula = "2d20kh1d20" ∧
      HasD20 (s.applyAdvantage "1d20d20" []).formula.toList := by
  decide +kernel

/-- Two single d20s are written anew, and the dice that are no single d20s stay. -/
theorem applyAdvantage_rewrites_twice :
    let s : Session := { empty with advantage := .disadvantage }
    let formula := "d20+1d20-11d20+1d200"
    let made := s.applyAdvantage formula ["[✨ Bless: 1d4]"]
    s.advantage ≠ .normal ∧ HasD20 formula.toList ∧
      made = ⟨"2d20kl1+2d20kl1-11d20+1d200", ["[✨ Bless: 1d4]", "[⚠️ Disadvantage]"], empty⟩ ∧
      (∃ dice, s.advantage.dice = some dice ∧ RewritesD20s dice formula.toList made.formula.toList) ∧
      ¬ HasAdjoinedD20 formula.toList := by
  intro s formula made
  have held : s.advantage ≠ .normal := by decide
  have free : ¬ HasD20 made.formula.toList := by decide +kernel
  obtain ⟨dice, own, rewrites, adjoined, _⟩ := s.applyAdvantage_rewrites held formula ["[✨ Bless: 1d4]"]
  exact ⟨held, by decide +kernel, by decide +kernel, ⟨dice, own, rewrites⟩, fun follows => free (adjoined.mpr follows)⟩

end Session

end HeroSheet
