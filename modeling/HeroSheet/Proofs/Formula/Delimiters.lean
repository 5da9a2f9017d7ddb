import HeroSheet.Proofs.Formula.References
import HeroSheet.Proofs.Formula.Rendered
import HeroSheet.Proofs.Number.Integer

namespace HeroSheet

namespace Formula

open Text

/-- What marks the start or the end of arithmetic in a formula. -/
def delimiters : List Char := ['[', ']', '{', '}']

/-- The class has no other characters than delimiters. -/
def OnlyDelimiters (keep : Char → Bool) : Prop := ∀ c, keep c → c ∈ delimiters

section Chars

variable {c : Char} {cs : List Char} {keep : Char → Bool}

theorem not_delimiter_of_isReferenceChar (char : IsReferenceChar c) : c ∉ delimiters := by
  intro delimiter
  have apart : ∀ d ∈ delimiters, d ≠ '#' ∧ isPathChar d = false := forall_of_all (by decide)
  obtain ⟨unmarked, unnamed⟩ := apart c delimiter
  rcases char with mark | named
  · exact unmarked mark
  · rw [unnamed] at named
    cases named

theorem not_delimiter_of_isArithmeticChar (char : isArithmeticChar c) : c ∉ delimiters := by
  intro delimiter
  have apart : ∀ d ∈ delimiters, isArithmeticChar d = false := forall_of_all (by decide +kernel)
  rw [apart c delimiter] at char
  cases char

theorem not_delimiter_of_mem_integerText {n : Int} (member : c ∈ integerText n) : c ∉ delimiters := by
  have apart : ∀ d ∈ '-' :: asciiDigits, d ∉ delimiters := forall_of_all (by decide)
  exact apart c (mem_of_mem_integerText member)

theorem not_delimiter_of_mem_renderNumber {x : Binary64} (member : c ∈ renderNumber x) : c ∉ delimiters := by
  cases x with
  | finite negative size => exact (isNumberChar_of_renderNumber rfl c member).of_all (· ∉ delimiters) (by decide)
  | infinite negative =>
    have apart : ∀ d ∈ renderNumber (.infinite negative), d ∉ delimiters :=
      forall_of_all (by cases negative <;> decide)
    exact apart c member
  | nan =>
    have apart : ∀ d ∈ renderNumber .nan, d ∉ delimiters := forall_of_all (by decide)
    exact apart c member

theorem not_delimiter_of_mem_render {value : Value} (number : value.isNumber) (member : c ∈ value.render) :
    c ∉ delimiters := by
  cases value with
  | int n => exact not_delimiter_of_mem_integerText member
  | real x => exact not_delimiter_of_mem_renderNumber member
  | flag | text => cases number

private theorem not_delimiter_of_mem_apply {w : Wrapper} {x : Binary64} (member : c ∈ w.apply x) : c ∉ delimiters := by
  unfold Wrapper.apply at member
  simp only at member
  split at member
  · exact not_delimiter_of_mem_integerText member
  · exact not_delimiter_of_mem_renderNumber member

theorem OnlyDelimiters.filter_eq_nil (only : OnlyDelimiters keep) (without : ∀ c ∈ cs, c ∉ delimiters) :
    cs.filter keep = [] := by
  apply List.filter_eq_nil_iff.mpr
  intro c member kept
  exact without c member (only c kept)

end Chars

/-- Whether every opening character is closed shows in the opening and closing characters alone. -/
theorem closes_of_filter_eq {opening closing : Char} {cs ds : List Char} (closes : Closes opening closing cs)
    (same : ds.filter (fun c => c == opening || c == closing) = cs.filter fun c => c == opening || c == closing) :
    Closes opening closing ds := by
  rintro behind ⟨front, rfl⟩
  rw [List.filter_append, List.filter_cons_of_pos (by simp)] at same
  obtain ⟨before, after, rfl, _, rest⟩ := List.filter_eq_append_iff.mp same.symm
  obtain ⟨skipped, last, rfl, _, _, inner⟩ := List.filter_eq_cons_iff.mp rest
  have closed : closing ∈ last := by
    refine closes last ⟨before ++ skipped, ?_⟩
    rw [List.append_assoc]
  have kept : closing ∈ last.filter fun c => c == opening || c == closing :=
    List.mem_filter.mpr ⟨closed, by simp⟩
  rw [inner] at kept
  exact (List.mem_filter.mp kept).1

/-- A pass leaves the characters of a class where they are, when each text that it writes has those of the
reference. -/
theorem filter_pass {recognise : Recogniser (List Char)} {opening closing : Char} {inClass : Char → Prop}
    {keep : Char → Bool} (finds : Finds recognise (Between opening closing inClass))
    (value? : List Char → Option (List Char))
    (same : ∀ phrase text, (∀ c ∈ phrase, inClass c) → value? phrase = some text →
      text.filter keep = (opening :: phrase ++ [closing]).filter keep) (cs : List Char) :
    (replacePhrases recognise (fun phrase => (value? phrase).getD (opening :: phrase ++ [closing])) cs).filter keep =
      cs.filter keep := by
  apply finds.filter_replacePhrases
  rintro source phrase ⟨rfl, chars⟩
  cases found : value? phrase with
  | none => rfl
  | some text => exact same phrase text chars found

section Passes

variable {c : Character} {keep : Char → Bool} (only : OnlyDelimiters keep) (cs : List Char)
include only

private theorem filter_reference {phrase : List Char} (chars : ∀ d ∈ phrase, IsReferenceChar d) :
    ('(' :: phrase ++ [')']).filter keep = [] := by
  apply only.filter_eq_nil
  intro d member
  rcases List.mem_cons.mp member with rfl | member
  · decide
  · rcases List.mem_append.mp member with inner | last
    · exact not_delimiter_of_isReferenceChar (chars d inner)
    · rw [List.mem_singleton.mp last]
      decide

theorem filter_numbers {recognise : Recogniser (List Char)} (finds : Finds recognise (Between '(' ')' IsReferenceChar))
    (value? : List Char → Option Value) :
    (replacePhrases recognise
      (fun phrase => (((value? phrase).filter (·.isNumber)).map (·.render)).getD ('(' :: phrase ++ [')'])) cs).filter
      keep = cs.filter keep := by
  refine filter_pass finds (fun phrase => ((value? phrase).filter (·.isNumber)).map (·.render)) ?_ cs
  intro phrase text chars found
  obtain ⟨value, numeric, rfl⟩ := Option.map_eq_some_iff.mp found
  have number := (Option.filter_eq_some_iff.mp numeric).2
  rw [filter_reference only chars]
  exact only.filter_eq_nil fun d => not_delimiter_of_mem_render number

theorem filter_resolveHashReferences : (c.resolveHashReferences cs).filter keep = cs.filter keep :=
  filter_numbers only cs finds_hashReference c.valueOf?

theorem filter_resolveParenReferences : (c.resolveParenReferences cs).filter keep = cs.filter keep :=
  filter_numbers only cs finds_parenReference fun name => c.bagValue? (String.ofList name)

theorem filter_removeAll_boldMarker : (removeAll boldMarker cs).filter keep = cs.filter keep := by
  refine (finds_word (by decide)).filter_replacePhrases ?_ cs
  rintro source _ rfl
  exact (only.filter_eq_nil (forall_of_all (by decide))).symm

end Passes

section Substituted

variable {c : Character}

/-- What paths are replaced with. -/
def IsReplacement (entry : List Char × Value) : Prop :=
  (entry.1 ≠ [] ∧ ∀ d ∈ entry.1, isPathChar d) ∧ entry.2.isNumber

private theorem isReplacement_of_mem {cs : List Char} : ∀ entry ∈ c.replacements cs, IsReplacement entry := by
  unfold Character.replacements
  refine List.foldlRecOn
    (motive := fun (entries : List (List Char × Value)) => ∀ entry ∈ entries, IsReplacement entry) _ _ (by simp) ?_
  intro entries sound name found
  obtain ⟨source, present, rfl, chars⟩ := finds_path.spelled_of_mem_phrases found
  cases numeric : c.numericValue? source with
  | none => exact sound
  | some value =>
    intro entry put
    rcases Entries.mem_put put with rfl | old
    · exact ⟨⟨present, chars⟩, (Option.filter_eq_some_iff.mp numeric).2⟩
    · exact sound entry old

private theorem filter_substitutePaths {keep : Char → Bool} (only : OnlyDelimiters keep) (cs : List Char) :
    (c.substitutePaths cs).filter keep = cs.filter keep := by
  unfold Character.substitutePaths
  refine List.foldlRecOn (motive := fun (text : List Char) => text.filter keep = cs.filter keep) _ _ rfl ?_
  intro text same entry member
  obtain ⟨⟨present, chars⟩, number⟩ := isReplacement_of_mem entry (List.mem_mergeSort.mp member)
  refine ((finds_word present).filter_replacePhrases ?_ text).trans same
  rintro source _ rfl
  rw [only.filter_eq_nil fun d => not_delimiter_of_mem_render number]
  exact (only.filter_eq_nil fun d member => not_delimiter_of_isReferenceChar (Or.inr (chars d member))).symm

theorem filter_of_isPureArithmetic {keep : Char → Bool} (only : OnlyDelimiters keep) {cs : List Char}
    (pure : isPureArithmetic (c.substitutePaths cs)) : cs.filter keep = [] := by
  rw [← filter_substitutePaths (c := c) only]
  apply only.filter_eq_nil
  intro d member
  exact not_delimiter_of_isArithmeticChar (List.all_eq_true.mp (Bool.and_eq_true_iff.mp pure).2 d member)

private theorem filter_withoutBlanks {keep : Char → Bool} (only : OnlyDelimiters keep) (cs : List Char) :
    (withoutBlanks cs).filter keep = cs.filter keep := by
  have solid : ∀ d ∈ delimiters, isBlank d = false := forall_of_all (by decide)
  rw [withoutBlanks, List.filter_filter]
  apply List.filter_congr
  intro d _
  cases kept : keep d with
  | false => rfl
  | true => simp [solid d (only d kept)]

private theorem filter_of_argument? {keep : Char → Bool} (only : OnlyDelimiters keep) {w : Wrapper}
    {cs inner : List Char}
    (called : w.argument? cs = some inner) : cs.filter keep = inner.filter keep := by
  unfold Wrapper.argument? at called
  simp only at called
  split at called
  · rename_i shaped
    obtain rfl := Option.some.inj called
    simp only [Bool.and_eq_true, Bool.not_eq_true', decide_eq_true_eq] at shaped
    obtain ⟨⟨opened, closed⟩, present⟩ := shaped
    obtain ⟨rest, rfl⟩ := List.isPrefixOf_iff_prefix.mp opened
    rw [List.drop_left] at present ⊢
    have left : rest ≠ [] := by
      rintro rfl
      cases present
    have last : rest.getLast left = ')' := by
      rw [List.getLast?_append_of_ne_nil _ left, List.getLast?_eq_some_getLast left] at closed
      exact Option.some.inj closed
    have front : (w.name ++ ['(']).filter keep = [] :=
      only.filter_eq_nil (forall_of_all (by cases w <;> decide))
    have back : [')'].filter keep = [] := only.filter_eq_nil (forall_of_all (by decide))
    calc (w.name ++ ['('] ++ rest).filter keep = rest.filter keep := by
          rw [List.filter_append, front, List.nil_append]
      _ = (rest.dropLast ++ [')']).filter keep := by rw [← last, List.dropLast_append_getLast left]
      _ = rest.dropLast.filter keep := by rw [List.filter_append, back, List.append_nil]
  · cases called

/-- Brackets that come to a number hold no delimiter, and neither does the number. -/
theorem filter_of_bracketValue? {keep : Char → Bool} (only : OnlyDelimiters keep) {content text : List Char}
    (found : c.bracketValue? content = some text) : content.filter keep = [] ∧ text.filter keep = [] := by
  unfold Character.bracketValue? at found
  simp only at found
  rw [← filter_withoutBlanks only content]
  rcases Option.or_eq_some_iff.mp found with wrapped | ⟨_, floored⟩
  · unfold Character.wrapperValue? at wrapped
    obtain ⟨⟨w, inner⟩, called, wrapped⟩ := Option.bind_eq_some_iff.mp wrapped
    obtain ⟨own, _, called⟩ := List.exists_of_findSome?_eq_some called
    obtain ⟨argument, taken, same⟩ := Option.map_eq_some_iff.mp called
    obtain ⟨rfl, rfl⟩ := Prod.mk.inj same
    simp only at wrapped
    split at wrapped
    · rename_i pure
      obtain ⟨x, _, rfl⟩ := Option.map_eq_some_iff.mp wrapped
      refine ⟨?_, only.filter_eq_nil fun d => not_delimiter_of_mem_apply⟩
      rw [filter_of_argument? only taken]
      exact filter_of_isPureArithmetic only pure
    · cases wrapped
  · split at floored
    · rename_i pure
      obtain ⟨x, _, floored⟩ := Option.bind_eq_some_iff.mp floored
      obtain ⟨n, _, rfl⟩ := Option.map_eq_some_iff.mp floored
      exact ⟨filter_of_isPureArithmetic only pure, only.filter_eq_nil fun d => not_delimiter_of_mem_integerText⟩
    · cases floored

/-- Brackets leave the braces where they are. -/
theorem filter_resolveBrackets {keep : Char → Bool} (only : ∀ d, keep d → d = '{' ∨ d = '}') (cs : List Char) :
    (c.resolveBrackets cs).filter keep = cs.filter keep := by
  have delimiting : OnlyDelimiters keep := by
    intro d kept
    rcases only d kept with rfl | rfl <;> decide
  refine filter_pass (finds_enclosed '[' ']') c.bracketValue? ?_ cs
  intro content text _ found
  obtain ⟨inner, written⟩ := filter_of_bracketValue? delimiting found
  have brackets : keep '[' = false ∧ keep ']' = false := by
    constructor <;> (apply Bool.eq_false_iff.mpr; intro kept; rcases only _ kept with same | same <;> cases same)
  rw [written, List.filter_append, List.filter_cons, brackets.1, inner, List.filter_cons, brackets.2]
  rfl

end Substituted

end Formula

end HeroSheet
