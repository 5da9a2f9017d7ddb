import HeroSheet.Formula.Resolve
import HeroSheet.Proofs.Formula.Tokens
import HeroSheet.Proofs.Text.Search

namespace HeroSheet

namespace Formula

open Text

/-- Every opening character of the text has a closing one somewhere behind it. -/
def Closes (opening closing : Char) (cs : List Char) : Prop :=
  ∀ behind, (opening :: behind) <:+ cs → closing ∈ behind

instance (opening closing : Char) (cs : List Char) : Decidable (Closes opening closing cs) :=
  decidable_of_iff (∀ s ∈ cs.tails, s.head? = some opening → closing ∈ s.tail) <| by
    constructor
    · intro each behind suffix
      exact each (opening :: behind) ((List.mem_tails _ _).mpr suffix) rfl
    · intro closes s member starts
      obtain ⟨behind, rfl⟩ := List.head?_eq_some_iff.mp starts
      exact closes behind ((List.mem_tails _ _).mp member)

/-- The phrase between an opening and a closing character, with characters of a class only. -/
def Between (opening closing : Char) (inClass : Char → Prop) (source phrase : List Char) : Prop :=
  source = opening :: phrase ++ [closing] ∧ ∀ c ∈ phrase, inClass c

/-- The content between an opening and a closing character. -/
def within (opening closing : Char) (content : List Char) : List Char := opening :: (content ++ [closing])

/-- A character of a name that is referred to. -/
def IsReferenceChar (c : Char) : Prop := c = '#' ∨ isPathChar c

section Names

variable {c : Char} {cs name : List Char}

theorem isNameChar_of_isNameStart (starts : isNameStart c) : isNameChar c := by
  simp only [isNameStart, Bool.or_eq_true] at starts
  simp only [isNameChar, Char.isAlphanum, Bool.or_eq_true]
  exact starts.imp Or.inl id

theorem isPathChar_of_isNameChar (char : isNameChar c) : isPathChar c := Bool.or_eq_true_iff.mpr (Or.inl char)

theorem not_isNameStart_of_not_isPathChar (other : isPathChar c = false) : isNameStart c = false := by
  by_contra starts
  rw [isPathChar_of_isNameChar (isNameChar_of_isNameStart (by simpa using starts))] at other
  cases other

private theorem bounds_of_isPathChar (char : isPathChar c) : 46 ≤ c.toNat ∧ c.toNat ≤ 122 := by
  simp only [isPathChar, isNameChar, Char.isAlphanum, Bool.or_eq_true, beq_iff_eq] at char
  rcases char with ((alpha | digit) | rfl) | rfl
  · rcases Bool.or_eq_true_iff.mp alpha with upper | lower
    · obtain ⟨low, high⟩ : 65 ≤ c.toNat ∧ c.toNat ≤ 90 := of_decide_eq_true upper
      omega
    · have bounds : 97 ≤ c.toNat ∧ c.toNat ≤ 122 :=
        (Bool.and_eq_true_iff.mp lower).imp of_decide_eq_true of_decide_eq_true
      omega
  · have bounds : 48 ≤ c.toNat ∧ c.toNat ≤ 57 :=
      (Bool.and_eq_true_iff.mp digit).imp of_decide_eq_true of_decide_eq_true
    omega
  · decide
  · decide

theorem not_isBlank_of_isPathChar (char : isPathChar c) : isBlank c = false := by
  have bounds := bounds_of_isPathChar char
  simp only [isBlank, isWhiteSpace, isSeparator, Bool.or_eq_false_iff, Bool.and_eq_false_iff, decide_eq_false_iff_not,
    beq_eq_false_iff_ne]
  omega

/-- A path is read from the front. -/
theorem spelled_of_pathSpan? (read : pathSpan? cs = some name) :
    name ≠ [] ∧ (∀ c ∈ name, isPathChar c) ∧ ∃ rest, cs = name ++ rest := by
  cases cs with
  | nil => cases read
  | cons d cs =>
    unfold pathSpan? at read
    simp only at read
    split at read
    · rename_i starts
      obtain rfl := Option.some.inj read
      refine ⟨List.cons_ne_nil _ _, ?_, cs.dropWhile isPathChar, ?_⟩
      · intro c member
        rcases List.mem_cons.mp member with rfl | later
        · exact isPathChar_of_isNameChar (isNameChar_of_isNameStart starts)
        · exact List.mem_takeWhile_imp later
      · rw [List.cons_append, List.takeWhile_append_dropWhile]
    · cases read

theorem starts_of_pathSpan? (read : pathSpan? cs = some name) :
    ∃ letter more, name = letter :: more ∧ isNameStart letter := by
  cases cs with
  | nil => cases read
  | cons letter cs =>
    unfold pathSpan? at read
    simp only at read
    split at read
    · rename_i starts
      exact ⟨letter, cs.takeWhile isPathChar, (Option.some.inj read).symm, starts⟩
    · cases read

/-- A path does not go on over a character of another kind. -/
theorem pathSpan?_append (ends : isPathChar c = false) (cs rest : List Char) :
    pathSpan? (cs ++ c :: rest) = pathSpan? cs := by
  cases cs with
  | nil =>
    simp only [List.nil_append, pathSpan?, not_isNameStart_of_not_isPathChar ends, Bool.false_eq_true, if_false]
  | cons d cs =>
    have same : (cs ++ c :: rest).takeWhile isPathChar = cs.takeWhile isPathChar :=
      takeWhile_append_of_ends fun _ e here => by
        obtain rfl := Option.some.inj here
        exact ends
    simp only [pathSpan?, List.cons_append, same]

/-- Whether a character other than a blank comes next does not depend on what follows a blank. -/
theorem head?_append (ahead : c ≠ ' ') (cs rest : List Char) :
    (cs ++ ' ' :: rest).head? = some c ↔ cs.head? = some c := by
  cases cs with
  | nil =>
    constructor
    · intro here
      exact absurd (Option.some.inj here).symm ahead
    · intro here
      cases here
  | cons d cs => exact Iff.rfl

theorem finds_path : Finds path fun source name => source = name ∧ ∀ c ∈ name, isPathChar c := by
  refine ⟨fun _ _ _ => rfl, ?_⟩
  intro before cs phrase width found
  obtain ⟨name, read, same⟩ := Option.map_eq_some_iff.mp found
  obtain ⟨rfl, rfl⟩ := Prod.mk.inj same
  obtain ⟨present, chars, rest, eq⟩ := spelled_of_pathSpan? read
  exact ⟨name, rest, eq, rfl, present, rfl, chars⟩

theorem isPath_of_pathSpan? (read : pathSpan? cs = some name) : isPath name := by
  obtain ⟨letter, more, rfl, starts⟩ := starts_of_pathSpan? read
  have chars := (List.forall_mem_cons.mp (spelled_of_pathSpan? read).2.1).2
  simp only [isPath, pathSpan?, starts, if_true, List.takeWhile_eq_self_iff.mpr chars, beq_self_eq_true]

theorem isPathChar_of_isPath (whole : isPath cs) : ∀ c ∈ cs, isPathChar c :=
  (spelled_of_pathSpan? (beq_iff_eq.mp whole)).2.1

end Names

section Found

theorem finds_hashReference : Finds hashReference (Between '(' ')' IsReferenceChar) := by
  refine ⟨fun _ _ _ => rfl, ?_⟩
  intro before cs phrase width found
  unfold hashReference at found
  split at found
  · rename_i inside
    obtain ⟨name, read, ended⟩ := Option.bind_eq_some_iff.mp found
    obtain ⟨present, chars, rest, rfl⟩ := spelled_of_pathSpan? read
    rw [List.drop_left] at ended
    split at ended
    · rename_i closed
      obtain ⟨last, rfl⟩ := List.head?_eq_some_iff.mp closed
      obtain ⟨rfl, rfl⟩ := Prod.mk.inj (Option.some.inj ended)
      refine ⟨'(' :: '#' :: name ++ [')'], last, by simp, by simp, by simp, rfl, ?_⟩
      intro c member
      rcases List.mem_cons.mp member with mark | later
      · exact Or.inl mark
      · exact Or.inr (chars c later)
    · cases ended
  · cases found

theorem starts_of_hashReference {before : Option Char} {cs phrase : List Char} {width : Nat}
    (found : hashReference before cs = some (phrase, width)) :
    ∃ letter more, phrase = '#' :: letter :: more ∧ isNameStart letter := by
  unfold hashReference at found
  split at found
  · obtain ⟨name, read, ended⟩ := Option.bind_eq_some_iff.mp found
    obtain ⟨letter, more, rfl, starts⟩ := starts_of_pathSpan? read
    split at ended
    · exact ⟨letter, more, (Prod.mk.inj (Option.some.inj ended)).1.symm, starts⟩
    · cases ended
  · cases found

/-- A reference in parentheses is one word from a letter on. -/
theorem spelled_of_parenReference {before : Option Char} {cs phrase : List Char} {width : Nat}
    (found : parenReference before cs = some (phrase, width)) :
    (∃ rest, cs = '(' :: (phrase ++ ')' :: rest)) ∧ width = phrase.length + 2 ∧ (∀ c ∈ phrase, isNameChar c) ∧
      ∃ c more, phrase = c :: more ∧ isNameStart c := by
  unfold parenReference at found
  split at found
  · rename_i c inside
    split at found
    · rename_i starts
      simp only at found
      split at found
      · rename_i closed
        obtain ⟨last, eq⟩ := List.head?_eq_some_iff.mp closed
        obtain ⟨rfl, rfl⟩ := Prod.mk.inj (Option.some.inj found)
        refine ⟨⟨last, ?_⟩, rfl, ?_, c, inside.takeWhile isNameChar, rfl, starts⟩
        · rw [List.cons_append, ← eq, List.takeWhile_append_dropWhile]
        · intro d member
          rcases List.mem_cons.mp member with rfl | later
          · exact isNameChar_of_isNameStart starts
          · exact List.mem_takeWhile_imp later
      · cases found
    · cases found
  · cases found

theorem finds_parenReference : Finds parenReference (Between '(' ')' IsReferenceChar) := by
  refine ⟨fun _ _ _ => rfl, ?_⟩
  intro before cs phrase width found
  obtain ⟨⟨rest, rfl⟩, rfl, chars, _⟩ := spelled_of_parenReference found
  refine ⟨'(' :: phrase ++ [')'], rest, by simp, by simp, by simp, rfl, ?_⟩
  exact fun c member => Or.inr (isPathChar_of_isNameChar (chars c member))

theorem finds_enclosed (opening closing : Char) :
    Finds (enclosed opening closing) (Between opening closing fun _ => True) := by
  refine ⟨fun _ _ _ => rfl, ?_⟩
  intro before cs phrase width found
  unfold enclosed at found
  split at found
  · rename_i c inside
    split at found
    · rename_i same
      simp only at found
      split at found
      · cases found
      · rename_i ended
        obtain ⟨rfl, rfl⟩ := Prod.mk.inj (Option.some.inj found)
        have split := List.takeWhile_append_dropWhile (p := (· != closing)) (l := inside)
        have left : inside.dropWhile (· != closing) ≠ [] := by
          intro none
          rw [none, List.append_nil] at split
          exact ended (by simp [split])
        obtain ⟨d, last, behind⟩ := List.exists_cons_of_ne_nil left
        have closed : d = closing := by
          have first := List.head_dropWhile_not (· != closing) left
          simpa [behind] using first
        refine ⟨opening :: inside.takeWhile (· != closing) ++ [closing], last, ?_, by simp, by simp, rfl, by simp⟩
        rw [behind, closed] at split
        rw [same]
        simpa using split.symm
    · cases found
  · cases found

/-- A text that is one pair of delimiters comes to what is written for its content. -/
theorem replacePhrases_within {opening closing : Char} {content : List Char} {write : List Char → List Char}
    (absent : closing ∉ content) (hollow : content = [] → write [] = within opening closing []) :
    replacePhrases (enclosed opening closing) write (within opening closing content) = write content := by
  cases content with
  | nil =>
    rw [hollow rfl]
    simp [replacePhrases, pieces, piecesFrom, enclosed, assemble, within]
  | cons d content =>
    have inside : ∀ own ∈ d :: content, (own != closing) = true := fun own member =>
      bne_iff_ne.mpr fun same => absent (same ▸ member)
    have taken : (d :: content ++ [closing]).takeWhile (· != closing) = d :: content := by
      rw [List.takeWhile_append_of_pos inside, List.takeWhile_cons_of_neg (by simp), List.append_nil]
    have found : enclosed opening closing none (within opening closing (d :: content)) =
        some (d :: content, (within opening closing (d :: content)).length) := by
      simp only [enclosed, within, if_true, taken]
      simp
    exact replacePhrases_of_whole write (by simp [within]) found

theorem finds_slotLevelMention : Finds slotLevelMention fun _ _ => True := by
  refine ⟨fun _ _ _ => rfl, ?_⟩
  intro before cs phrase width found
  unfold slotLevelMention at found
  split at found
  · rename_i mentioned
    obtain ⟨_, rfl⟩ := Prod.mk.inj (Option.some.inj found)
    have size := congrArg List.length (beq_iff_eq.mp mentioned)
    rw [List.length_map] at size
    refine ⟨cs.take slotLevelWord.length, cs.drop slotLevelWord.length, (List.take_append_drop _ _).symm, size, ?_,
      trivial⟩
    intro none
    rw [none] at size
    cases size
  · cases found

end Found

section Parted

variable (cs : List Char)

theorem partedBy_hashReference : PartedBy hashReference cs ' ' := by
  intro s _ rest
  rcases s with _ | ⟨c, _ | ⟨d, s⟩⟩
  · rfl
  · simp [hashReference]
  · by_cases marked : c = '(' ∧ d = '#'
    · obtain ⟨rfl, rfl⟩ := marked
      simp only [hashReference, List.cons_append, pathSpan?_append (c := ' ') rfl]
      cases read : pathSpan? s with
      | none => rfl
      | some name =>
        obtain ⟨_, _, after, rfl⟩ := spelled_of_pathSpan? read
        simp only [Option.bind_some, List.append_assoc, List.drop_left, head?_append (c := ')') (by decide)]
    · have other : ∀ last, hashReference none (c :: d :: last) = none := by
        intro last
        unfold hashReference
        split
        · rename_i same
          simp only [List.cons.injEq] at same
          exact absurd ⟨same.1, same.2.1⟩ marked
        · rfl
      rw [List.cons_append, List.cons_append, other, other]

theorem partedBy_parenReference : PartedBy parenReference cs ' ' := by
  intro s _ rest
  rcases s with _ | ⟨c, _ | ⟨d, s⟩⟩
  · rfl
  · by_cases opens : c = '('
    · subst opens
      rfl
    · simp [parenReference, opens]
  · by_cases opens : c = '('
    · subst opens
      have front : (s ++ ' ' :: rest).takeWhile isNameChar = s.takeWhile isNameChar :=
        takeWhile_append_of_ends fun _ e here => by
          obtain rfl := Option.some.inj here
          rfl
      have back : ((s ++ ' ' :: rest).dropWhile isNameChar).head? = some ')' ↔
          (s.dropWhile isNameChar).head? = some ')' := by
        rw [List.dropWhile_append]
        by_cases whole : (s.dropWhile isNameChar).isEmpty
        · rw [if_pos whole, List.isEmpty_iff.mp whole]
          exact head?_append (by decide) [] rest
        · rw [if_neg whole]
          exact head?_append (by decide) _ rest
      simp only [parenReference, List.cons_append, front, back]
    · simp [parenReference, opens]

variable {cs}

theorem partedBy_enclosed {opening closing : Char} (closes : Closes opening closing cs) (apart : opening ≠ ' ') :
    PartedBy (enclosed opening closing) cs ' ' := by
  intro s suffix rest
  cases s with
  | nil => simp [enclosed, apart.symm]
  | cons c s =>
    by_cases opens : c = opening
    · subst opens
      obtain ⟨front, back, rfl⟩ := List.append_of_mem (closes s suffix)
      have content : ∀ last, (front ++ closing :: last).takeWhile (· != closing) = front.takeWhile (· != closing) := by
        intro last
        exact takeWhile_append_of_ends fun _ d here => by
          obtain rfl := Option.some.inj here
          simp
      have short : ∀ last, (front.takeWhile (· != closing)).length = (front ++ closing :: last).length ↔ False := by
        intro last
        have most := (List.takeWhile_prefix (p := (· != closing)) (l := front)).length_le
        rw [List.length_append, List.length_cons, iff_false]
        omega
      simp only [enclosed, List.cons_append, List.append_assoc, content, short]
    · simp only [enclosed, List.cons_append, if_neg opens]

theorem partedBy_word {target : List Char} {c : Char} (apart : c ∉ target) : PartedBy (word target) cs c := by
  intro s _ rest
  have same : target.isPrefixOf (s ++ c :: rest) = target.isPrefixOf s :=
    isPrefixOf_append_of_head fun d here => by
      obtain rfl := Option.some.inj here
      exact apart
  simp only [word, same]

theorem partedBy_path {c : Char} (ends : isPathChar c = false) : PartedBy path cs c := by
  intro s _ rest
  simp only [path, pathSpan?_append ends]

theorem partedBy_slotLevelMention : PartedBy slotLevelMention cs ' ' := by
  intro s _ rest
  have same : ((s ++ ' ' :: rest).take slotLevelWord.length).map foldCase == slotLevelWord ↔
      (s.take slotLevelWord.length).map foldCase == slotLevelWord := by
    by_cases short : s.length < slotLevelWord.length
    · refine iff_of_false ?_ ?_
      · intro mentioned
        have blank : foldCase ' ' ∈ ((s ++ ' ' :: rest).take slotLevelWord.length).map foldCase := by
          refine List.mem_map_of_mem ?_
          obtain ⟨more, room⟩ := Nat.exists_eq_add_of_lt short
          rw [List.take_append, room, Nat.add_assoc, Nat.add_sub_cancel_left]
          exact List.mem_append_right _ List.mem_cons_self
        rw [beq_iff_eq.mp mentioned] at blank
        exact absurd blank (by decide)
      · intro mentioned
        have size := congrArg List.length (beq_iff_eq.mp mentioned)
        rw [List.length_map, List.length_take] at size
        omega
    · rw [List.take_append_of_le_length (Nat.le_of_not_lt short)]
  simp only [slotLevelMention, same]

end Parted

end Formula

end HeroSheet
