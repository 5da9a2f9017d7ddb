import HeroSheet.Text.Blank
import Mathlib.Data.List.TakeWhile

namespace HeroSheet.Text

variable {inClass : Char → Bool} {cs before after : List Char}

/-- A text that neither starts nor ends with a character of the class is stripped of nothing. -/
theorem strip_eq_self (starts : ∀ c ∈ cs.head?, inClass c = false)
    (ends : ∀ c ∈ cs.getLast?, inClass c = false) : strip inClass cs = cs := by
  have kept : ∀ own : List Char, (∀ c ∈ own.head?, inClass c = false) → own.dropWhile inClass = own := by
    intro own first
    cases own with
    | nil => rfl
    | cons c rest => exact List.dropWhile_cons_of_neg (by simp [first c rfl])
  have front := kept cs starts
  have back := kept cs.reverse (by rwa [List.head?_reverse])
  rw [strip, stripEnd, front, back, List.reverse_reverse]

/-- So is one without such characters. -/
theorem strip_of_forall_mem (solid : ∀ c ∈ cs, inClass c = false) : strip inClass cs = cs :=
  strip_eq_self (fun c first => solid c (List.mem_of_mem_head? first)) fun c last => solid c (List.mem_of_getLast? last)

theorem strip_append_left (all : ∀ c ∈ before, inClass c) :
    strip inClass (before ++ after) = strip inClass after := by
  rw [strip, strip, List.dropWhile_append_of_pos all]

theorem stripEnd_append_right (all : ∀ c ∈ after, inClass c) :
    stripEnd inClass (before ++ after) = stripEnd inClass before := by
  have reversed : ∀ c ∈ after.reverse, inClass c := fun c member => all c (List.mem_reverse.mp member)
  rw [stripEnd, stripEnd, List.reverse_append, List.dropWhile_append_of_pos reversed]

/-- What is left of a text starts where its first character outside the class stands. -/
theorem dropWhile_append_of_exists (stays : ∃ c ∈ before, inClass c = false) :
    (before ++ after).dropWhile inClass = before.dropWhile inClass ++ after := by
  obtain ⟨c, member, outside⟩ := stays
  have left : before.dropWhile inClass ≠ [] := by
    intro none
    have inside := List.dropWhile_eq_nil_iff.mp none c member
    rw [outside] at inside
    cases inside
  rw [List.dropWhile_append, if_neg (by simpa [List.isEmpty_iff] using left)]

theorem strip_append_right (all : ∀ c ∈ after, inClass c) :
    strip inClass (before ++ after) = strip inClass before := by
  by_cases stays : ∃ c ∈ before, inClass c = false
  · rw [strip, strip, dropWhile_append_of_exists stays, stripEnd_append_right all]
  · have blank : ∀ c ∈ before, inClass c := by
      intro c member
      by_contra outside
      exact stays ⟨c, member, by simpa using outside⟩
    have whole := List.dropWhile_eq_nil_iff.mpr all
    rw [strip_append_left blank, strip, strip, whole, List.dropWhile_eq_nil_iff.mpr blank]

/-- A text that starts outside the class starts there when it is stripped. -/
theorem strip_cons_of_not_inClass {c : Char} (outside : inClass c = false) :
    ∃ rest, strip inClass (c :: after) = c :: rest := by
  have kept : strip inClass (c :: after) = stripEnd inClass (c :: after) := by
    rw [strip, List.dropWhile_cons_of_neg (by simp [outside])]
  by_cases stays : ∃ d ∈ after, inClass d = false
  · obtain ⟨d, member, solid⟩ := stays
    refine ⟨stripEnd inClass after, ?_⟩
    rw [kept, stripEnd, List.reverse_cons,
      dropWhile_append_of_exists ⟨d, List.mem_reverse.mpr member, solid⟩, List.reverse_append]
    rfl
  · have blank : ∀ d ∈ after, inClass d := by
      intro d member
      by_contra solid
      exact stays ⟨d, member, by simpa using solid⟩
    refine ⟨[], ?_⟩
    rw [kept, ← List.singleton_append, stripEnd_append_right blank, stripEnd]
    simp [outside]

/-- Nothing is left of a text exactly when all its characters are of the class. -/
theorem strip_eq_nil_iff : strip inClass cs = [] ↔ ∀ c ∈ cs, inClass c := by
  constructor
  · intro none c member
    rw [strip, stripEnd, List.reverse_eq_nil_iff, List.dropWhile_eq_nil_iff] at none
    rw [← List.takeWhile_append_dropWhile (p := inClass) (l := cs)] at member
    rcases List.mem_append.mp member with front | left
    · exact List.mem_takeWhile_imp front
    · exact none c (List.mem_reverse.mpr left)
  · intro all
    rw [strip, List.dropWhile_eq_nil_iff.mpr all]
    rfl

/-- What stands between characters outside the class is not stripped. -/
theorem mem_strip_of_between {middle : Char} (left : ∃ c ∈ before, inClass c = false)
    (right : ∃ c ∈ after, inClass c = false) : middle ∈ strip inClass (before ++ middle :: after) := by
  obtain ⟨c, member, outside⟩ := right
  rw [strip, dropWhile_append_of_exists left, stripEnd, List.reverse_append, List.reverse_cons,
    List.append_assoc, dropWhile_append_of_exists ⟨c, List.mem_reverse.mpr member, outside⟩]
  simp

/-- A text is what is left of it between characters of the class. -/
theorem exists_strip (inClass : Char → Bool) (cs : List Char) :
    ∃ front back, cs = front ++ strip inClass cs ++ back ∧ (∀ c ∈ front, inClass c) ∧ ∀ c ∈ back, inClass c := by
  refine ⟨cs.takeWhile inClass, ((cs.dropWhile inClass).reverse.takeWhile inClass).reverse, ?_,
    fun c => List.mem_takeWhile_imp, fun c member => List.mem_takeWhile_imp (List.mem_reverse.mp member)⟩
  rw [strip, stripEnd, List.append_assoc, ← List.reverse_append, List.takeWhile_append_dropWhile,
    List.reverse_reverse, List.takeWhile_append_dropWhile]

/-- What is left of a text stands in it. -/
theorem strip_isInfix (cs : List Char) : strip inClass cs <:+: cs := by
  obtain ⟨front, back, split, _, _⟩ := exists_strip inClass cs
  exact ⟨front, back, split.symm⟩

/-- What is left of a text starts outside the class. -/
theorem not_inClass_of_mem_head?_strip {c : Char} (first : c ∈ (strip inClass cs).head?) :
    inClass c = false := by
  cases left : cs.dropWhile inClass with
  | nil => simp [strip, left, stripEnd] at first
  | cons d rest =>
    have outside : inClass d = false := by
      have kept := List.head?_dropWhile_not inClass cs
      rw [left] at kept
      simpa using kept
    have whole : strip inClass cs = strip inClass (d :: rest) := by
      rw [strip, strip, left, List.dropWhile_cons_of_neg (by simp [outside])]
    obtain ⟨others, starts⟩ : ∃ others, strip inClass (d :: rest) = d :: others := strip_cons_of_not_inClass outside
    rw [whole, starts, List.head?_cons, Option.mem_some] at first
    exact first ▸ outside

/-- What is left of a text ends outside the class. -/
theorem not_inClass_of_mem_getLast?_strip {c : Char} (last : c ∈ (strip inClass cs).getLast?) :
    inClass c = false := by
  have kept := List.head?_dropWhile_not inClass (cs.dropWhile inClass).reverse
  rw [strip, stripEnd, List.getLast?_reverse] at last
  rw [Option.mem_def.mp last] at kept
  simpa using kept

end HeroSheet.Text
