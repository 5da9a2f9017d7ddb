import HeroSheet.Text.Search
import Mathlib.Data.List.Infix

/-!
Where phrases are found. A recogniser that looks ahead only, and finds the same before a character whatever stands
from there on, finds the phrases of a text part by part.
-/

namespace HeroSheet.Text

variable {α : Type} {recognise : Recogniser α} {spells : List Char → α → Prop} {write : α → List Char}

/-- The recogniser looks ahead only, and what it finds covers characters that spell the phrase. -/
structure Finds (recognise : Recogniser α) (spells : List Char → α → Prop) : Prop where
  ahead : ∀ before other cs, recognise before cs = recognise other cs
  spelled : ∀ {before cs phrase width}, recognise before cs = some (phrase, width) →
    ∃ source rest, cs = source ++ rest ∧ source.length = width ∧ source ≠ [] ∧ spells source phrase

/-- What is found in the text does not depend on the character behind it and what follows. -/
def PartedBy (recognise : Recogniser α) (cs : List Char) (c : Char) : Prop :=
  ∀ s, s <:+ cs → ∀ rest, recognise none (s ++ c :: rest) = recognise none s

/-- Nothing is found anywhere in the text. -/
def FindsNothing (recognise : Recogniser α) (cs : List Char) : Prop :=
  ∀ s, s <:+ cs → recognise none s = none

section Covered

variable {before : Option Char} {source back : List Char} {phrase : α}

/-- What stands before a later place: the last character on the way there, or what stands before the text. -/
theorem getLast?_cons_or (c : Char) (front : List Char) (before : Option Char) :
    ((c :: front).getLast?).or before = front.getLast?.or (some c) := by
  cases front with
  | nil => rfl
  | cons d front =>
    rw [List.getLast?_cons_cons, List.getLast?_eq_some_getLast (List.cons_ne_nil d front)]
    rfl

private theorem piecesFrom_covered (source : List Char) :
    piecesFrom recognise before source.length (source ++ back) =
      piecesFrom recognise (source.getLast?.or before) 0 back := by
  induction source generalizing before with
  | nil => rfl
  | cons c source ih => rw [List.length_cons, List.cons_append, piecesFrom, ih, getLast?_cons_or]

/-- What is found at the front is one piece, and the search goes on behind it. -/
theorem piecesFrom_of_found (present : source ≠ [])
    (found : recognise before (source ++ back) = some (phrase, source.length)) :
    piecesFrom recognise before 0 (source ++ back) =
      .found phrase :: piecesFrom recognise source.getLast? 0 back := by
  obtain ⟨c, source, rfl⟩ := List.exists_cons_of_ne_nil present
  have last : ((c :: source).getLast?).or before = source.getLast?.or (some c) := getLast?_cons_or c source before
  rw [Option.or_of_isSome (by simp)] at last
  rw [List.cons_append] at found ⊢
  rw [piecesFrom, found, List.length_cons, last]
  exact congrArg (_ :: ·) (piecesFrom_covered source)

theorem pieces_of_whole (present : source ≠ []) (found : recognise none source = some (phrase, source.length)) :
    pieces recognise source = [.found phrase] := by
  have whole : piecesFrom recognise none 0 (source ++ []) =
      .found phrase :: piecesFrom recognise source.getLast? 0 [] :=
    piecesFrom_of_found present (by rwa [List.append_nil])
  rw [List.append_nil, piecesFrom] at whole
  exact whole

/-- A text that is found whole is written as its phrase. -/
theorem replacePhrases_of_whole (write : α → List Char) (present : source ≠ [])
    (found : recognise none source = some (phrase, source.length)) :
    replacePhrases recognise write source = write phrase := by
  rw [replacePhrases, pieces_of_whole present found]
  exact List.append_nil (write phrase)

end Covered

namespace Finds

theorem none_of_nil (finds : Finds recognise spells) (before : Option Char) : recognise before [] = none := by
  cases found : recognise before [] with
  | none => rfl
  | some phrase =>
    obtain ⟨source, rest, eq, _, present, _⟩ := finds.spelled found
    exact absurd (List.append_eq_nil_iff.mp eq.symm).1 present

theorem piecesFrom_before (finds : Finds recognise spells) (before other : Option Char) (covered : Nat)
    (cs : List Char) : piecesFrom recognise before covered cs = piecesFrom recognise other covered cs := by
  cases cs with
  | nil => simp only [piecesFrom]
  | cons c cs =>
    cases covered with
    | succ covered => simp only [piecesFrom]
    | zero => simp only [piecesFrom, finds.ahead before other]

section Reading

variable {cs source back : List Char} {c : Char} {phrase : α}

theorem pieces_of_none (finds : Finds recognise spells) (nothing : recognise none (c :: cs) = none) :
    pieces recognise (c :: cs) = .char c :: pieces recognise cs := by
  simp only [pieces, piecesFrom, nothing]
  rw [finds.piecesFrom_before (some c) none]

theorem pieces_of_found (finds : Finds recognise spells) (present : source ≠ [])
    (found : recognise none (source ++ back) = some (phrase, source.length)) :
    pieces recognise (source ++ back) = .found phrase :: pieces recognise back := by
  rw [pieces, piecesFrom_of_found present found, finds.piecesFrom_before source.getLast? none, pieces]

theorem replacePhrases_of_none (finds : Finds recognise spells) (nothing : recognise none (c :: cs) = none) :
    replacePhrases recognise write (c :: cs) = c :: replacePhrases recognise write cs := by
  rw [replacePhrases, finds.pieces_of_none nothing]
  rfl

theorem replacePhrases_of_found (finds : Finds recognise spells) (present : source ≠ [])
    (found : recognise none (source ++ back) = some (phrase, source.length)) :
    replacePhrases recognise write (source ++ back) = write phrase ++ replacePhrases recognise write back := by
  rw [replacePhrases, finds.pieces_of_found present found]
  rfl

theorem phrases_of_none (finds : Finds recognise spells) (nothing : recognise none (c :: cs) = none) :
    phrases (pieces recognise (c :: cs)) = phrases (pieces recognise cs) := by
  rw [finds.pieces_of_none nothing]
  rfl

theorem phrases_of_found (finds : Finds recognise spells) (present : source ≠ [])
    (found : recognise none (source ++ back) = some (phrase, source.length)) :
    phrases (pieces recognise (source ++ back)) = phrase :: phrases (pieces recognise back) := by
  rw [finds.pieces_of_found present found]
  rfl

/-- A text is read from the front, one character or one phrase at a time. -/
theorem reading (finds : Finds recognise spells) {motive : List Char → Prop} (nil : motive [])
    (char : ∀ c cs, recognise none (c :: cs) = none → motive cs → motive (c :: cs))
    (found : ∀ source phrase back, source ≠ [] → spells source phrase →
      recognise none (source ++ back) = some (phrase, source.length) → motive back → motive (source ++ back))
    (cs : List Char) : motive cs := by
  induction size : cs.length using Nat.strong_induction_on generalizing cs with
  | h n ih =>
    cases cs with
    | nil => exact nil
    | cons c cs =>
      cases read : recognise none (c :: cs) with
      | none => exact char c cs read (ih cs.length (by simp [← size]) cs rfl)
      | some result =>
        obtain ⟨phrase, width⟩ := result
        obtain ⟨source, back, eq, rfl, present, spelled⟩ := finds.spelled read
        rw [eq] at read size ⊢
        have shorter : back.length < n := by
          have some := List.length_pos_iff.mpr present
          rw [List.length_append] at size
          omega
        exact found source phrase back present spelled read (ih back.length shorter back rfl)

/-- A text without phrases is one in which nothing is found. -/
theorem findsNothing (finds : Finds recognise spells) (none : phrases (pieces recognise cs) = []) :
    FindsNothing recognise cs := by
  induction cs using finds.reading with
  | nil =>
    intro s suffix
    rw [List.suffix_nil.mp suffix]
    exact finds.none_of_nil _
  | char c cs nothing ih =>
    intro s suffix
    rcases List.suffix_cons_iff.mp suffix with rfl | inner
    · exact nothing
    · exact ih (by rwa [finds.phrases_of_none nothing] at none) s inner
  | found source phrase back present _ found _ =>
    rw [finds.phrases_of_found present found] at none
    cases none

end Reading

/-- The pieces of two parts are those of each of them. -/
theorem pieces_append (finds : Finds recognise spells) {cs : List Char} {c : Char} (parted : PartedBy recognise cs c)
    (rest : List Char) :
    pieces recognise (cs ++ c :: rest) = pieces recognise cs ++ .char c :: pieces recognise rest := by
  induction cs using finds.reading with
  | nil => exact finds.pieces_of_none ((parted [] List.nil_suffix rest).trans (finds.none_of_nil none))
  | char d cs nothing ih =>
    have here : recognise none (d :: (cs ++ c :: rest)) = none :=
      (parted (d :: cs) (List.suffix_refl _) rest).trans nothing
    have later := ih fun s suffix => parted s (suffix.trans (List.suffix_cons d cs))
    rw [List.cons_append, finds.pieces_of_none here, finds.pieces_of_none nothing, later, List.cons_append]
  | found source phrase back present _ found ih =>
    have here := (parted (source ++ back) (List.suffix_refl _) rest).trans found
    have later := ih fun s suffix => parted s (suffix.trans (List.suffix_append source back))
    rw [List.append_assoc] at here ⊢
    rw [finds.pieces_of_found present here, finds.pieces_of_found present found, later, List.cons_append]

theorem replacePhrases_append (finds : Finds recognise spells) {cs : List Char} {c : Char}
    (parted : PartedBy recognise cs c) (rest : List Char) :
    replacePhrases recognise write (cs ++ c :: rest) =
      replacePhrases recognise write cs ++ c :: replacePhrases recognise write rest := by
  rw [replacePhrases, finds.pieces_append parted, assemble, List.flatMap_append, List.flatMap_cons]
  rfl

/-- A text in which nothing is found is cut into its characters. -/
theorem pieces_eq_map (finds : Finds recognise spells) {cs : List Char} (nothing : FindsNothing recognise cs) :
    pieces recognise cs = cs.map .char := by
  induction cs with
  | nil => rfl
  | cons c cs ih =>
    have later := ih fun s suffix => nothing s (suffix.trans (List.suffix_cons c cs))
    rw [finds.pieces_of_none (nothing (c :: cs) (List.suffix_refl _)), later, List.map_cons]

theorem replacePhrases_eq_self (finds : Finds recognise spells) {cs : List Char}
    (nothing : FindsNothing recognise cs) : replacePhrases recognise write cs = cs := by
  rw [replacePhrases, finds.pieces_eq_map nothing, assemble, List.flatMap_map]
  exact List.flatMap_singleton' cs

theorem phrases_eq_nil (finds : Finds recognise spells) {cs : List Char} (nothing : FindsNothing recognise cs) :
    phrases (pieces recognise cs) = [] := by
  rw [finds.pieces_eq_map nothing, phrases, List.filterMap_map]
  exact List.filterMap_eq_nil_iff.mpr fun _ _ => rfl

/-- The characters of a class stay as they are, when phrases are written with those that spell them. -/
theorem filter_replacePhrases (finds : Finds recognise spells) {keep : Char → Bool}
    (same : ∀ source phrase, spells source phrase → (write phrase).filter keep = source.filter keep)
    (cs : List Char) : (replacePhrases recognise write cs).filter keep = cs.filter keep := by
  induction cs using finds.reading with
  | nil => rfl
  | char c cs nothing ih => rw [finds.replacePhrases_of_none nothing, List.filter_cons, List.filter_cons, ih]
  | found source phrase back present spelled found ih =>
    rw [finds.replacePhrases_of_found present found, List.filter_append, List.filter_append, ih, same _ _ spelled]

/-- Every phrase that is found is spelled somehow. -/
theorem spelled_of_mem_phrases (finds : Finds recognise spells) {cs : List Char} {phrase : α}
    (member : phrase ∈ phrases (pieces recognise cs)) : ∃ source, source ≠ [] ∧ spells source phrase := by
  induction cs using finds.reading with
  | nil => cases member
  | char c cs nothing ih =>
    rw [finds.phrases_of_none nothing] at member
    exact ih member
  | found source own back present spelled found ih =>
    rw [finds.phrases_of_found present found] at member
    rcases List.mem_cons.mp member with rfl | later
    · exact ⟨source, present, spelled⟩
    · exact ih later

end Finds

theorem phrases_append (ps qs : List (Piece α)) : phrases (ps ++ qs) = phrases ps ++ phrases qs :=
  List.filterMap_append

section Word

variable {target new cs : List Char}

theorem finds_word (present : target ≠ []) : Finds (word target) fun source _ => source = target := by
  refine ⟨fun _ _ _ => rfl, ?_⟩
  intro before cs phrase width found
  unfold word at found
  split at found
  · rename_i starts
    obtain ⟨rest, eq⟩ := List.isPrefixOf_iff_prefix.mp starts
    obtain ⟨_, rfl⟩ := Prod.mk.inj (Option.some.inj found)
    exact ⟨target, rest, eq.symm, rfl, present, rfl⟩
  · cases found

theorem findsNothing_word (absent : contains target cs = false) : FindsNothing (word target) cs := by
  intro s suffix
  have unseen : target.isPrefixOf s = false := by
    induction cs with
    | nil =>
      obtain rfl := List.suffix_nil.mp suffix
      cases target with
      | nil => cases absent
      | cons c target => rfl
    | cons c cs ih =>
      obtain ⟨here, later⟩ := Bool.or_eq_false_iff.mp absent
      rcases List.suffix_cons_iff.mp suffix with rfl | inner
      · exact here
      · exact ih later inner
  rw [word, unseen]
  rfl

theorem isInfix_of_contains (found : contains target cs = true) : target <:+: cs := by
  induction cs with
  | nil => exact List.isEmpty_iff.mp found ▸ List.nil_infix
  | cons c cs ih =>
    rcases Bool.or_eq_true_iff.mp found with starts | later
    · exact (List.isPrefixOf_iff_prefix.mp starts).isInfix
    · exact List.infix_cons (ih later)

/-- A word that stands nowhere in a text is not replaced. -/
theorem replaceAll_eq_self (present : target ≠ []) (absent : ¬ target <:+: cs) : replaceAll target new cs = cs := by
  refine (finds_word present).replacePhrases_eq_self (findsNothing_word ?_)
  exact Bool.eq_false_iff.mpr fun found => absent (isInfix_of_contains found)

theorem replaceAll_self (present : target ≠ []) : replaceAll target new target = new := by
  have found : word target none target = some ((), target.length) :=
    if_pos (List.isPrefixOf_iff_prefix.mpr (List.prefix_refl target))
  exact replacePhrases_of_whole (fun _ => new) present found

end Word

end HeroSheet.Text
