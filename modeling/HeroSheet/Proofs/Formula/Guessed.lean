import HeroSheet.Proofs.Formula.Enclosed

/-!
Brackets with a name that has no value. Values are put for names in the whole text, but what is put for one name
never reaches over into another one; so each name of the text is rewritten by itself, longer names first, and a name
without a value goes away where the names inside of it have values and nothing else of it is left but digits and
points. Only then is a name guessed, and brackets that hold it come to a number.
-/

namespace HeroSheet

namespace Formula

open Text

variable {cs : List Char}

section Names

variable {name : List Char} {c : Char}

theorem path_eq_none_iff : path none (c :: cs) = none ↔ isNameStart c = false := by
  simp [path, pathSpan?]

/-- A path takes all characters that could go on with it. -/
theorem not_isPathChar_of_path {source back : List Char}
    (found : path none (source ++ c :: back) = some (name, source.length)) : isPathChar c = false := by
  obtain ⟨own, read, same⟩ := Option.map_eq_some_iff.mp found
  obtain ⟨rfl, size⟩ := Prod.mk.inj same
  cases source with
  | nil => exact absurd (List.eq_nil_of_length_eq_zero size) (spelled_of_pathSpan? read).1
  | cons d source =>
    unfold pathSpan? at read
    simp only [List.cons_append] at read
    split at read
    · obtain rfl := Option.some.inj read
      have count : ((source ++ c :: back).takeWhile isPathChar).length = source.length := by simpa using size
      have taken : (source ++ c :: back).takeWhile isPathChar = source := by
        have front := List.prefix_iff_eq_take.mp (List.takeWhile_prefix (l := source ++ c :: back) isPathChar)
        rwa [count, List.take_left] at front
      have left : (source ++ c :: back).dropWhile isPathChar = c :: back := by
        have split := List.takeWhile_append_dropWhile (p := isPathChar) (l := source ++ c :: back)
        rw [taken] at split
        exact List.append_cancel_left split
      have stops := List.head?_dropWhile_not isPathChar (source ++ c :: back)
      rw [left] at stops
      simpa using stops
    · cases read

theorem isPath_of_mem_phrases (member : name ∈ phrases (pieces path cs)) : isPath name := by
  induction cs using finds_path.reading with
  | nil => cases member
  | char c cs nothing ih =>
    rw [finds_path.phrases_of_none nothing] at member
    exact ih member
  | found source own back present _ found ih =>
    rw [finds_path.phrases_of_found present found] at member
    rcases List.mem_cons.mp member with rfl | later
    · obtain ⟨_, read, same⟩ := Option.map_eq_some_iff.mp found
      obtain ⟨rfl, _⟩ := Prod.mk.inj same
      exact isPath_of_pathSpan? read
    · exact ih later

private theorem not_isArithmeticChar_of_isNameStart (starts : isNameStart c) : ¬ isArithmeticChar c := by
  intro char
  rcases Bool.or_eq_true_iff.mp char with number | mark
  · rcases Bool.or_eq_true_iff.mp number with decimal | blank
    · rw [isNameStart_of_isDecimal decimal] at starts
      cases starts
    · rw [not_isBlank_of_isPathChar (isPathChar_of_isNameChar (isNameChar_of_isNameStart starts))] at blank
      cases blank
  · have unnamed : ∀ d ∈ ['+', '-', '*', '/', '(', ')', '.'], isNameStart d = false := forall_of_all (by decide)
    rw [unnamed c (List.contains_iff_mem.mp mark)] at starts
    cases starts

private theorem assemble_pieces (cs : List Char) : assemble id (pieces path cs) = cs := by
  have unvalued : ∀ name ∈ phrases (pieces path cs), (fun _ => none : List Char → Option (List Char)) name = none :=
    fun _ _ => rfl
  exact finds_path.replacePhrases_eq_self_of_unvalued (fun spelled => spelled.1) unvalued

private theorem evaluate_nil {x : Binary64} : evaluate [] ≠ .ok x := by
  intro ok
  obtain ⟨tokens, e, lexes, parsed, _⟩ := evaluate_eq_ok_iff.mp ok
  cases lexes
  cases parsed

end Names

section Apart

/-- Characters between names start none, and behind a name stands none that could go on with it. -/
def NamesApart : List (Piece (List Char)) → Prop
  | [] => True
  | .char c :: ps => isNameStart c = false ∧ NamesApart ps
  | .found _ :: ps => (∀ p ∈ ps.head?, ∃ c, p = .char c ∧ isPathChar c = false) ∧ NamesApart ps

private theorem namesApart_pieces (cs : List Char) : NamesApart (pieces path cs) := by
  induction cs using finds_path.reading with
  | nil => trivial
  | char c cs nothing ih =>
    rw [finds_path.pieces_of_none nothing]
    exact ⟨path_eq_none_iff.mp nothing, ih⟩
  | found source name back present _ found ih =>
    rw [finds_path.pieces_of_found present found]
    refine ⟨?_, ih⟩
    cases back with
    | nil => rintro p ⟨⟩
    | cons c back =>
      have ends := not_isPathChar_of_path found
      rw [finds_path.pieces_of_none (path_eq_none_iff.mpr (not_isNameStart_of_not_isPathChar ends))]
      rintro p ⟨⟩
      exact ⟨c, rfl, ends⟩

private theorem replaceAll_assemble {target new : List Char} (whole : isPath target) (write : List Char → List Char)
    {ps : List (Piece (List Char))} (apart : NamesApart ps) :
    replaceAll target new (assemble write ps) = assemble (fun name => replaceAll target new (write name)) ps := by
  have finds := finds_word (ne_nil_of_isPath whole)
  have skip : ∀ {c : Char} {rest : List Char}, isNameStart c = false →
      replaceAll target new (c :: rest) = c :: replaceAll target new rest := by
    intro c rest other
    refine finds.replacePhrases_of_none (if_neg ?_)
    obtain ⟨letter, more, rfl, starts⟩ := exists_of_isPath whole
    simp only [List.isPrefixOf, Bool.and_eq_true, beq_iff_eq, not_and]
    rintro rfl
    rw [other] at starts
    cases starts
  induction ps with
  | nil => rfl
  | cons p ps ih =>
    cases p with
    | char c => exact (skip apart.1).trans (congrArg (c :: ·) (ih apart.2))
    | found name =>
      obtain ⟨behind, others⟩ := apart
      cases ps with
      | nil => exact (congrArg _ (List.append_nil _)).trans (List.append_nil _).symm
      | cons p ps =>
        obtain ⟨c, rfl, ends⟩ := behind p rfl
        have unheld : c ∉ target := by
          intro member
          rw [isPathChar_of_isPath whole c member] at ends
          cases ends
        have parts : replaceAll target new (write name ++ c :: assemble write ps) =
            replaceAll target new (write name) ++ c :: replaceAll target new (assemble write ps) :=
          finds.replacePhrases_append (partedBy_word unheld) _
        have later : c :: replaceAll target new (assemble write ps) =
            assemble (fun name => replaceAll target new (write name)) (.char c :: ps) :=
          (skip others.1).symm.trans (ih others)
        exact parts.trans (congrArg (replaceAll target new (write name) ++ ·) later)

private theorem splice_assemble {entries : List (List Char × Value)} (paths : ∀ entry ∈ entries, isPath entry.1)
    (write : List Char → List Char) {ps : List (Piece (List Char))} (apart : NamesApart ps) :
    splice entries (assemble write ps) = assemble (fun name => splice entries (write name)) ps := by
  induction entries generalizing write with
  | nil => rfl
  | cons entry entries ih =>
    obtain ⟨whole, others⟩ := List.forall_mem_cons.mp paths
    exact (congrArg (splice entries) (replaceAll_assemble whole write apart)).trans (ih others _)

/-- What holds of all characters holds of those between the names and of those written for names. -/
theorem forall_mem_assemble {p : Char → Prop} {write : List Char → List Char} {ps : List (Piece (List Char))} :
    (∀ d ∈ assemble write ps, p d) ↔
      (∀ d, .char d ∈ ps → p d) ∧ ∀ name ∈ phrases ps, ∀ d ∈ write name, p d := by
  induction ps with
  | nil => simp [assemble, phrases]
  | cons piece ps ih =>
    cases piece with
    | char c =>
      have first : assemble write (.char c :: ps) = c :: assemble write ps := rfl
      have same : phrases (.char c :: ps : List (Piece (List Char))) = phrases ps := rfl
      rw [first, same, List.forall_mem_cons, ih, ← and_assoc]
      simp
    | found name =>
      have first : assemble write (.found name :: ps) = write name ++ assemble write ps := rfl
      have same : phrases (.found name :: ps) = name :: phrases ps := rfl
      rw [first, same, List.forall_mem_append, ih, List.forall_mem_cons, and_left_comm]
      simp

end Apart

end Formula

namespace Character

open Formula Text

variable {c : Character} {cs content name : List Char}

/-- The names of a text that have values, longer ones first. -/
def ordered (c : Character) (cs : List Char) : List (List Char × Value) :=
  (c.replacements cs).mergeSort fun a b => b.1.length ≤ a.1.length

/-- What the values of the names in a text make of one of its names. -/
def remnant (c : Character) (cs name : List Char) : List Char := splice (c.ordered cs) name

/-- Values are put for the names of a text in each name by itself. -/
theorem substitutePaths_eq (c : Character) (cs : List Char) :
    c.substitutePaths cs = replacePhrases path (c.remnant cs) cs := by
  have paths : ∀ entry ∈ c.ordered cs, isPath entry.1 := fun entry member =>
    isPath_of_mem_phrases (of_mem_replacements entry (List.mem_mergeSort.mp member)).1
  calc c.substitutePaths cs
    _ = splice (c.ordered cs) (assemble id (pieces path cs)) := by rw [assemble_pieces]; rfl
    _ = assemble (c.remnant cs) (pieces path cs) := splice_assemble paths id (namesApart_pieces cs)

private theorem remnant_eq_self (apart : ∀ entry ∈ c.replacements cs, ¬ entry.1 <:+: name) :
    c.remnant cs name = name := by
  have absent : ∀ entry ∈ c.ordered cs, entry.1 ≠ [] ∧ ¬ entry.1 <:+: name := by
    intro entry member
    have own := List.mem_mergeSort.mp member
    exact ⟨ne_nil_of_isPath (isPath_of_mem_phrases (of_mem_replacements entry own).1), apart entry own⟩
  unfold remnant splice
  refine List.foldlRecOn (motive := fun text => text = name) _ _ rfl ?_
  rintro text rfl entry member
  exact replaceAll_eq_self (absent entry member).1 (absent entry member).2

/-- With what the values in it make of its names, the text is arithmetic that has a value. -/
structure ReadsAsArithmetic (c : Character) (cs : List Char) : Prop where
  between : ∀ d, .char d ∈ pieces path cs → isArithmeticChar d
  names : ∀ name ∈ phrases (pieces path cs), ∀ d ∈ c.remnant cs name, isArithmeticChar d
  value : ∃ x, evaluate (replacePhrases path (c.remnant cs) cs) = .ok x

private theorem readsAsArithmetic_iff : c.ReadsAsArithmetic cs ↔
    isPureArithmetic (c.substitutePaths cs) ∧ ∃ x, evaluate (c.substitutePaths cs) = .ok x := by
  rw [substitutePaths_eq, isPureArithmetic, Bool.and_eq_true, List.all_eq_true]
  constructor
  · intro reads
    obtain ⟨x, value⟩ := reads.value
    have present : replacePhrases path (c.remnant cs) cs ≠ [] := fun none => evaluate_nil (none ▸ value)
    exact ⟨⟨by simpa using present, forall_mem_assemble.mpr ⟨reads.between, reads.names⟩⟩, x, value⟩
  · rintro ⟨⟨_, pure⟩, value⟩
    obtain ⟨between, names⟩ := forall_mem_assemble.mp pure
    exact ⟨between, names, value⟩

/-- Brackets without parentheses come to a number exactly when their content reads as arithmetic. -/
theorem exists_bracketValue?_iff (parens : '(' ∉ content) :
    (∃ text, c.bracketValue? content = some text) ↔ c.ReadsAsArithmetic (withoutBlanks content) := by
  have uncalled : c.wrapperValue? (withoutBlanks content) = none := by
    have unopened : '(' ∉ withoutBlanks content := fun member => parens (List.mem_filter.mp member).1
    rw [wrapperValue?, wrapped?_eq_none fun w opened => unopened (opened.subset (by simp))]
    rfl
  rw [readsAsArithmetic_iff]
  simp only [bracketValue?, uncalled, Option.none_or]
  by_cases pure : isPureArithmetic (c.substitutePaths (withoutBlanks content)) = true
  · simp only [pure, if_true, true_and]
    cases ok : evaluate (c.substitutePaths (withoutBlanks content)) with
    | error fault => simp [Except.toOption]
    | ok x =>
      have finite := isFinite_of_evaluate ok
      cases x with
      | finite negative size => simp [Except.toOption, Binary64.floor?]
      | infinite | nan => cases finite
  · simp [pure]

/-- Brackets around the content stay as they are written, when some name in it has no numeric value. -/
def LeavesUnresolved (c : Character) (content : List Char) : Prop :=
  (∃ name ∈ phrases (pieces path content), c.numericValue? name = none) →
    c.resolve (within '[' ']' content) = within '[' ']' content

/-- Brackets stay exactly when they wait for a slot level or their content does not read as arithmetic. -/
theorem resolve_brackets_eq_self_iff (undelimited : Undelimited content) (parens : '(' ∉ content)
    (bold : Text.contains boldMarker content = false) :
    c.resolve (within '[' ']' content) = within '[' ']' content ↔
      mentionsSlotLevel (within '[' ']' content) = true ∨ ¬ c.ReadsAsArithmetic (withoutBlanks content) := by
  by_cases waits : mentionsSlotLevel (within '[' ']' content) = true
  · simp only [resolve, waits, if_true, true_or]
  · have unreferenced : Unreferenced (within '[' ']' content) :=
      unreferenced_of_not_mem (not_mem_within parens (by decide))
    rw [resolve_brackets undelimited (Bool.eq_false_iff.mpr waits) unreferenced, removeAll_boldMarker_eq_self bold,
      or_iff_right waits, ← exists_bracketValue?_iff parens]
    cases found : c.bracketValue? content with
    | none => simp
    | some text =>
      have number := isNumberText_of_bracketValue? found
      have other : text ≠ within '[' ']' content := by
        rintro rfl
        exact absurd rfl ((number.chars '[' List.mem_cons_self).of_all (· ≠ '[') (by decide))
      simp [other]

/-- A name that no name with a value is a part of keeps the brackets around it. -/
theorem resolve_brackets_of_apart (undelimited : Undelimited content) (parens : '(' ∉ content)
    (bold : Text.contains boldMarker content = false) (member : name ∈ phrases (pieces path (withoutBlanks content)))
    (apart : ∀ own ∈ phrases (pieces path (withoutBlanks content)), c.numericValue? own ≠ none → ¬ own <:+: name) :
    c.resolve (within '[' ']' content) = within '[' ']' content := by
  refine (resolve_brackets_eq_self_iff undelimited parens bold).mpr (Or.inr fun reads => ?_)
  have same : c.remnant (withoutBlanks content) name = name := by
    refine remnant_eq_self fun entry replaced => ?_
    obtain ⟨own, valued⟩ := of_mem_replacements entry replaced
    exact apart entry.1 own (by simp [valued])
  have chars := reads.names name member
  obtain ⟨letter, more, rfl, starts⟩ := exists_of_isPath (isPath_of_mem_phrases member)
  rw [same] at chars
  exact not_isArithmeticChar_of_isNameStart starts (chars letter List.mem_cons_self)

/-- Brackets with a name that has no value are left alone exactly when every name has one after all, or they wait for
a slot level, or their content does not read as arithmetic with what the values in it make of each name. -/
theorem leavesUnresolved_iff (c : Character) (content : List Char) (undelimited : Undelimited content)
    (parens : '(' ∉ content) (bold : Text.contains boldMarker content = false) :
    c.LeavesUnresolved content ↔
      (∀ name ∈ phrases (pieces path content), c.numericValue? name ≠ none) ∨
        mentionsSlotLevel (within '[' ']' content) = true ∨ ¬ c.ReadsAsArithmetic (withoutBlanks content) := by
  rw [LeavesUnresolved, resolve_brackets_eq_self_iff undelimited parens bold, imp_iff_not_or]
  push Not
  rfl

/-- A letter that no value takes away keeps the brackets. -/
theorem leavesUnresolved_levels :
    (leveled 3).numericValue? "levels".toList = none ∧ (leveled 3).LeavesUnresolved "level+levels".toList ∧
      (leveled 3).resolve "[level+levels]".toList = "[level+levels]".toList := by
  have unvalued : (leveled 3).numericValue? "levels".toList = none := by decide +kernel
  have kept : ¬ (leveled 3).ReadsAsArithmetic (withoutBlanks "level+levels".toList) := by
    intro reads
    have char := reads.names "levels".toList (by decide +kernel) 's' (by decide +kernel)
    exact absurd char (by decide)
  have left := (leavesUnresolved_iff (leveled 3) "level+levels".toList (by decide) (by decide) (by decide)).mpr
    (Or.inr (Or.inr kept))
  exact ⟨unvalued, left, left ⟨"levels".toList, by decide +kernel, unvalued⟩⟩

/-- The value of one name and the rest of another are taken for a number together. -/
theorem not_leavesUnresolved_level2 :
    (leveled 3).numericValue? "level2".toList = none ∧
      (leveled 3).resolve "[level+level2]".toList = "35".toList ∧
      ¬ ∀ (c : Character) (content : List Char), Undelimited content → '(' ∉ content → ')' ∉ content →
        Text.contains boldMarker content = false → c.LeavesUnresolved content := by
  have unvalued : (leveled 3).numericValue? "level2".toList = none := by decide +kernel
  have guessed : (leveled 3).resolve "[level+level2]".toList = "35".toList := by decide +kernel
  refine ⟨unvalued, guessed, ?_⟩
  intro leaves
  have kept := leaves (leveled 3) "level+level2".toList (by decide) (by decide) (by decide) (by decide)
    ⟨"level2".toList, by decide +kernel, unvalued⟩
  exact absurd (guessed.symm.trans kept) (by decide)

/-- Blanks go before names are looked for, and two names without a value make up one that has it. -/
example : (leveled 3).resolve "[le vel]".toList = "3".toList := by decide +kernel

end Character

end HeroSheet
