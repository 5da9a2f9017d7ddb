import HeroSheet.Proofs.Text.Search

/-!
Words that a pass cannot put together. Text that starts outside a word and nowhere starts the word is no part of an
occurrence of it; where a pass writes only such text, a word that stands in the outcome stood there before.
-/

namespace HeroSheet.Text

variable {word text front back cs : List Char}

theorem contains_of_isInfix (within : word <:+: cs) : contains word cs = true := by
  induction cs with
  | nil => exact List.isEmpty_iff.mpr (List.infix_nil.mp within)
  | cons c cs ih =>
    refine Bool.or_eq_true_iff.mpr ?_
    rcases List.infix_cons_iff.mp within with starts | later
    · exact Or.inl (List.isPrefixOf_iff_prefix.mpr starts)
    · exact Or.inr (ih later)

/-- No occurrence of the word starts in the text. -/
def StartsNo (word text : List Char) : Prop := ∀ c ∈ text, c ∉ word.head?

/-- The text starts outside the word, and no occurrence of the word starts in it. -/
structure Severs (word text : List Char) : Prop where
  present : text ≠ []
  first : ∀ c ∈ text.head?, c ∉ word
  later : StartsNo word text

-- over the characters of the text by name, since an instance that is searched for may try all there are
instance : Decidable (StartsNo word text) := List.decidableBAll (· ∉ word.head?) text

instance : Decidable (Severs word text) :=
  decidable_of_iff (text ≠ [] ∧ text.head?.all (· ∉ word) = true ∧ StartsNo word text)
    ⟨fun ⟨present, first, later⟩ => ⟨present, by simpa [Option.all_eq_true] using first, later⟩,
      fun severs => ⟨severs.present, by simpa [Option.all_eq_true] using severs.first, severs.later⟩⟩

theorem StartsNo.isInfix_append_iff (starts : StartsNo word text) (present : word ≠ []) :
    word <:+: text ++ back ↔ word <:+: back := by
  obtain ⟨head, rest, rfl⟩ := List.exists_cons_of_ne_nil present
  have absent : head ∉ text := fun member => starts head member rfl
  rw [List.infix_append_iff]
  constructor
  · rintro (inside | behind | ⟨left, right, split, ends, begins⟩)
    · exact absurd (inside.subset List.mem_cons_self) absent
    · exact behind
    · cases left with
      | nil => exact split ▸ begins.isInfix
      | cons d left =>
        obtain ⟨rfl, _⟩ := List.cons.inj split
        exact absurd (ends.subset List.mem_cons_self) absent
  · exact fun behind => Or.inr (Or.inl behind)

theorem StartsNo.not_isInfix (starts : StartsNo word text) (present : word ≠ []) : ¬ word <:+: text := by
  intro within
  have alone : word <:+: text ++ [] ↔ word <:+: [] := starts.isInfix_append_iff present
  rw [List.append_nil] at alone
  exact present (List.infix_nil.mp (alone.mp within))

/-- An occurrence of the word around the text is on one side of it. -/
theorem Severs.isInfix_of_append (severs : Severs word text) (present : word ≠ [])
    (within : word <:+: front ++ (text ++ back)) : word <:+: front ∨ word <:+: back := by
  rcases List.infix_append_iff.mp within with before | around | ⟨left, right, split, ends, begins⟩
  · exact Or.inl before
  · exact Or.inr ((severs.later.isInfix_append_iff present).mp around)
  · obtain ⟨c, rest, rfl⟩ := List.exists_cons_of_ne_nil severs.present
    cases right with
    | nil =>
      rw [List.append_nil] at split
      exact Or.inl (split ▸ ends.isInfix)
    | cons d right =>
      obtain ⟨rfl, _⟩ := List.cons_prefix_cons.mp begins
      exact absurd (split ▸ List.mem_append_right _ List.mem_cons_self) (severs.first _ rfl)

namespace Finds

variable {α : Type} {recognise : Recogniser α} {spells : List Char → α → Prop} {write : α → List Char}
  {fold : Char → Char}

/-- A word behind a pass that leaves its phrases or writes text that severs the word was there before the pass, as
far as the fold tells its characters apart. -/
theorem isInfix_of_replacePhrases (finds : Finds recognise spells) (present : word ≠ [])
    (each : ∀ phrase ∈ phrases (pieces recognise cs), ∀ source, spells source phrase →
      write phrase = source ∨ Severs word ((write phrase).map fold))
    (within : word <:+: (front ++ replacePhrases recognise write cs).map fold) :
    word <:+: (front ++ cs).map fold := by
  -- what stands in front grows along the text, so that an occurrence that starts there is not lost
  induction cs using finds.reading generalizing front with
  | nil => exact within
  | char c cs nothing ih =>
    rw [finds.replacePhrases_of_none nothing, List.append_cons] at within
    rw [finds.phrases_of_none nothing] at each
    rw [List.append_cons]
    exact ih each within
  | found source phrase back solid spelled found ih =>
    rw [finds.phrases_of_found solid found] at each
    have others := fun own member => each own (List.mem_cons_of_mem phrase member)
    rw [finds.replacePhrases_of_found solid found] at within
    rcases each phrase List.mem_cons_self source spelled with same | severs
    · rw [same, ← List.append_assoc] at within
      rw [← List.append_assoc]
      exact ih others within
    · rw [List.map_append, List.map_append] at within
      rcases severs.isInfix_of_append present within with before | behind
      · exact before.trans ((List.prefix_append front _).isInfix.map fold)
      · have later : word <:+: ([] ++ back).map fold := ih others behind
        exact later.trans (((List.suffix_append source back).trans (List.suffix_append front _)).isInfix.map fold)

end Finds

end HeroSheet.Text
