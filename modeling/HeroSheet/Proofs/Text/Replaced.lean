import HeroSheet.Proofs.Text.Search

namespace HeroSheet.Text

variable {α : Type} {recognise : Recogniser α} {spells : List Char → α → Prop}

namespace Finds

variable {cs : List Char}

section Valued

variable {value? : α → Option (List Char)} {spell : α → List Char}

/-- The text up to the first phrase that has a value, that phrase, and the text behind it. -/
structure FirstValued (recognise : Recogniser α) (value? : α → Option (List Char)) (spell : α → List Char)
    (cs front : List Char) (phrase : α) (text back : List Char) : Prop where
  split : cs = front ++ (spell phrase ++ back)
  found : recognise none (spell phrase ++ back) = some (phrase, (spell phrase).length)
  value : value? phrase = some text
  written : replacePhrases recognise (fun phrase => (value? phrase).getD (spell phrase)) cs =
    front ++ (text ++ replacePhrases recognise (fun phrase => (value? phrase).getD (spell phrase)) back)

theorem FirstValued.append {cs front text back : List Char} {phrase : α} (others : List Char)
    (first : FirstValued recognise value? spell cs front phrase text back)
    (same : replacePhrases recognise (fun phrase => (value? phrase).getD (spell phrase)) (others ++ cs) =
      others ++ replacePhrases recognise (fun phrase => (value? phrase).getD (spell phrase)) cs) :
    FirstValued recognise value? spell (others ++ cs) (others ++ front) phrase text back := by
  refine ⟨?_, first.found, first.value, ?_⟩
  · rw [List.append_assoc, ← first.split]
  · rw [same, first.written, List.append_assoc]

/-- Some phrase of the text is the first one that has a value, if any has one. -/
theorem exists_firstValued (finds : Finds recognise spells) (value? : α → Option (List Char)) (spell : α → List Char)
    (spelled : ∀ {source phrase}, spells source phrase → source = spell phrase) (cs : List Char) :
    (∀ phrase ∈ phrases (pieces recognise cs), value? phrase = none) ∨
      ∃ front phrase text back, FirstValued recognise value? spell cs front phrase text back := by
  induction cs using finds.reading with
  | nil => exact Or.inl (by simp [pieces, piecesFrom, phrases])
  | char c cs nothing ih =>
    rcases ih with none | ⟨front, phrase, text, back, first⟩
    · exact Or.inl (by rwa [finds.phrases_of_none nothing])
    · exact Or.inr ⟨c :: front, phrase, text, back, first.append [c] (finds.replacePhrases_of_none nothing)⟩
  | found source phrase back present spells found ih =>
    obtain rfl := spelled spells
    cases value : value? phrase with
    | some text =>
      refine Or.inr ⟨[], phrase, text, back, rfl, found, value, ?_⟩
      rw [finds.replacePhrases_of_found present found, value]
      rfl
    | none =>
      rcases ih with none | ⟨front, later, text, behind, first⟩
      · refine Or.inl ?_
        rw [finds.phrases_of_found present found]
        exact List.forall_mem_cons.mpr ⟨value, none⟩
      · refine Or.inr ⟨spell phrase ++ front, later, text, behind, first.append _ ?_⟩
        rw [finds.replacePhrases_of_found present found, value]
        rfl

/-- A text stays when none of its phrases has a value. -/
theorem replacePhrases_eq_self_of_unvalued (finds : Finds recognise spells)
    (spelled : ∀ {source phrase}, spells source phrase → source = spell phrase)
    (unvalued : ∀ phrase ∈ phrases (pieces recognise cs), value? phrase = none) :
    replacePhrases recognise (fun phrase => (value? phrase).getD (spell phrase)) cs = cs := by
  induction cs using finds.reading with
  | nil => rfl
  | char c cs nothing ih =>
    rw [finds.phrases_of_none nothing] at unvalued
    rw [finds.replacePhrases_of_none nothing, ih unvalued]
  | found source phrase back present spells found ih =>
    rw [finds.phrases_of_found present found] at unvalued
    obtain ⟨here, later⟩ := List.forall_mem_cons.mp unvalued
    rw [finds.replacePhrases_of_found present found, ih later, here, spelled spells]
    rfl

end Valued

end Finds

section Word

variable {target cs : List Char}

private theorem contains_of_findsNothing (present : target ≠ []) (nothing : FindsNothing (word target) cs) :
    contains target cs = false := by
  induction cs with
  | nil => exact List.isEmpty_eq_false_iff.mpr present
  | cons c cs ih =>
    have here := nothing (c :: cs) (List.suffix_refl _)
    have unseen : target.isPrefixOf (c :: cs) = false := by
      by_contra starts
      rw [word, if_pos (by simpa using starts)] at here
      cases here
    exact Bool.or_eq_false_iff.mpr ⟨unseen, ih fun s suffix => nothing s (suffix.trans (List.suffix_cons c cs))⟩

private theorem length_removeAll_le (present : target ≠ []) (cs : List Char) :
    (removeAll target cs).length ≤ cs.length := by
  have finds := finds_word present
  unfold removeAll replaceAll
  induction cs using finds.reading with
  | nil => exact Nat.le_refl _
  | char c cs nothing ih =>
    rw [finds.replacePhrases_of_none nothing]
    exact Nat.succ_le_succ ih
  | found source phrase back present _ found ih =>
    rw [finds.replacePhrases_of_found present found, List.nil_append, List.length_append]
    exact Nat.le_add_left_of_le ih

/-- A text from which removing a word takes nothing away does not hold the word. -/
theorem contains_of_removeAll_eq_self (present : target ≠ []) (same : removeAll target cs = cs) :
    contains target cs = false := by
  have finds := finds_word present
  refine contains_of_findsNothing present (finds.findsNothing ?_)
  rcases finds.exists_firstValued (fun _ => some []) (fun _ => target) id cs with none | found
  · exact List.eq_nil_iff_forall_not_mem.mpr fun phrase member => nomatch none phrase member
  · obtain ⟨front, _, text, back, split, _, value, written⟩ := found
    obtain rfl := Option.some.inj value
    have kept : front ++ ([] ++ removeAll target back) = front ++ (target ++ back) := written.symm.trans (same.trans split)
    have size := congrArg List.length (List.append_cancel_left kept)
    have some := List.length_pos_iff.mpr present
    have most := length_removeAll_le present back
    rw [List.nil_append, List.length_append] at size
    omega

end Word

end HeroSheet.Text
