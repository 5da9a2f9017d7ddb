import HeroSheet.Proofs.Formula.Rounded
import HeroSheet.Proofs.Text.Replaced

/-!
What a pass over the references of a formula cannot undo. Where a pass first changes a text it writes the start of a
number over a character that opens a reference, and no number opens one; and no pass starts more words than it finds,
since a number starts none unless it takes the place of a name.
-/

namespace HeroSheet

namespace Formula

open Text

/-- The characters that open what a pass replaces. -/
def openers : List Char := ['(', '[', '{', '*']

theorem mem_openers {c : Char} (opens : c ∈ ['(', '[']) : c ∈ openers := by
  have listed : ∀ own ∈ ['(', '['], own ∈ openers := forall_of_all (by decide)
  exact listed c opens

/-- The text without its asterisks. -/
def withoutStars (cs : List Char) : List Char := cs.filter (· != '*')

theorem withoutStars_append (cs ds : List Char) : withoutStars (cs ++ ds) = withoutStars cs ++ withoutStars ds :=
  List.filter_append _ _

theorem withoutStars_cons_of_opens {c : Char} (opens : c ∈ ['(', '[']) (cs : List Char) :
    withoutStars (c :: cs) = c :: withoutStars cs := by
  have solid : ∀ own ∈ ['(', '['], (own != '*') = true := forall_of_all (by decide)
  exact List.filter_cons_of_pos (solid c opens)

theorem withoutStars_cons_of_foreign {c : Char} (foreign : c ∉ openers) (cs : List Char) :
    withoutStars (c :: cs) = c :: withoutStars cs := by
  refine List.filter_cons_of_pos (bne_iff_ne.mpr ?_)
  rintro rfl
  exact foreign (by decide)

/-- The second text is the first one, or parts from it where the first one opens parentheses or brackets and the
second one opens nothing. -/
inductive Overwritten : List Char → List Char → Prop where
  | nil : Overwritten [] []
  | here {opening c : Char} (cs ds : List Char) (opens : opening ∈ ['(', '[']) (foreign : c ∉ openers) :
      Overwritten (opening :: cs) (c :: ds)
  | later (c : Char) {cs ds : List Char} (rest : Overwritten cs ds) : Overwritten (c :: cs) (c :: ds)

namespace Overwritten

variable {as bs cs ds front : List Char} {c d : Char}

theorem refl (cs : List Char) : Overwritten cs cs := by
  induction cs with
  | nil => exact .nil
  | cons c cs ih => exact .later c ih

/-- Where the second text opens something, the first one does the same. -/
theorem of_cons (overwritten : Overwritten (c :: cs) (d :: ds)) (opens : d ∈ openers) : c = d ∧ Overwritten cs ds := by
  cases overwritten with
  | here _ _ _ foreign => exact absurd opens foreign
  | later _ rest => exact ⟨rfl, rest⟩

theorem append (front : List Char) (overwritten : Overwritten cs ds) : Overwritten (front ++ cs) (front ++ ds) := by
  induction front with
  | nil => exact overwritten
  | cons c front ih => exact .later c ih

theorem of_append (overwritten : Overwritten (front ++ cs) (front ++ ds)) : Overwritten cs ds := by
  induction front with
  | nil => exact overwritten
  | cons c front ih =>
    cases overwritten with
    | here _ _ opens foreign => exact absurd (mem_openers opens) foreign
    | later _ rest => exact ih rest

theorem trans (first : Overwritten as bs) (second : Overwritten bs cs) : Overwritten as cs := by
  induction first generalizing cs with
  | nil => exact second
  | here as bs opens foreign =>
    cases second with
    | here _ _ again _ => exact absurd (mem_openers again) foreign
    | later _ rest => exact .here as _ opens foreign
  | later c _ ih =>
    cases second with
    | here _ _ opens foreign => exact .here _ _ opens foreign
    | later _ rest => exact .later c (ih rest)

theorem antisymm (first : Overwritten as bs) (second : Overwritten bs as) : as = bs := by
  induction first with
  | nil => rfl
  | here _ _ opens foreign =>
    have listed := mem_openers opens
    exact absurd ((of_cons second listed).1 ▸ listed) foreign
  | later c _ ih =>
    cases second with
    | here _ _ opens foreign => exact absurd (mem_openers opens) foreign
    | later _ rest => rw [ih rest]

/-- The same holds of the texts without their asterisks. -/
theorem filter (overwritten : Overwritten as bs) : Overwritten (withoutStars as) (withoutStars bs) := by
  induction overwritten with
  | nil => exact .nil
  | here as bs opens foreign =>
    rw [withoutStars_cons_of_opens opens, withoutStars_cons_of_foreign foreign]
    exact .here _ _ opens foreign
  | later c _ ih =>
    simp only [withoutStars, List.filter_cons] at ih ⊢
    split
    · exact .later c ih
    · exact ih

/-- Texts that are the same without their asterisks are the same. -/
theorem eq_of_withoutStars (overwritten : Overwritten as bs) (same : withoutStars as = withoutStars bs) : as = bs := by
  induction overwritten with
  | nil => rfl
  | here as bs opens foreign =>
    rw [withoutStars_cons_of_opens opens, withoutStars_cons_of_foreign foreign] at same
    exact absurd ((List.cons.inj same).1 ▸ mem_openers opens) foreign
  | later c _ ih =>
    simp only [withoutStars, List.filter_cons] at ih same
    split at same
    · rw [ih (List.cons.inj same).2]
    · rw [ih same]

/-- A text in front of which the second one has a brace more holds only braces. -/
theorem eq_brace (overwritten : Overwritten (front ++ as) ('{' :: (front ++ bs))) : ∀ c ∈ front, c = '{' := by
  induction front with
  | nil => simp
  | cons c front ih =>
    obtain ⟨rfl, rest⟩ := of_cons overwritten (by decide)
    exact List.forall_mem_cons.mpr ⟨rfl, ih rest⟩

/-- Text behind which the same happens is in no path. -/
theorem outside_of_brace (overwritten : Overwritten (withoutStars (front ++ as)) ('{' :: withoutStars (front ++ bs))) :
    ∀ c ∈ front, isPathChar c = false := by
  rw [withoutStars_append, withoutStars_append] at overwritten
  intro c member
  by_cases star : c = '*'
  · rw [star]
    decide
  · rw [overwritten.eq_brace c (List.mem_filter.mpr ⟨member, bne_iff_ne.mpr star⟩)]
    decide

end Overwritten

section WordStarts

variable {cs ds text : List Char} {inWord outer : Bool}

/-- The number of words that start in a text: of letters behind a character that is in no path. -/
def wordStarts : Bool → List Char → Nat
  | _, [] => 0
  | inWord, c :: cs => (if isNameStart c && !inWord then 1 else 0) + wordStarts (isPathChar c) cs

/-- Whether the text, behind a word or not, ends in a word. -/
def endsInWord (inWord : Bool) (cs : List Char) : Bool := cs.foldl (fun _ c => isPathChar c) inWord

theorem wordStarts_append (inWord : Bool) (cs ds : List Char) :
    wordStarts inWord (cs ++ ds) = wordStarts inWord cs + wordStarts (endsInWord inWord cs) ds := by
  induction cs generalizing inWord with
  | nil => exact (Nat.zero_add _).symm
  | cons c cs ih =>
    rw [List.cons_append, wordStarts, wordStarts, ih, Nat.add_assoc]
    rfl

/-- Behind a word no more words start. -/
theorem wordStarts_le (order : outer = true → inWord = true) (cs : List Char) :
    wordStarts inWord cs ≤ wordStarts outer cs := by
  cases cs with
  | nil => exact Nat.le_refl _
  | cons c cs =>
    refine Nat.add_le_add_right ?_ _
    cases outer with
    | true => rw [order rfl]
    | false => cases inWord <;> simp

theorem wordStarts_eq_zero (unnamed : ∀ c ∈ cs, isNameStart c = false) (inWord : Bool) : wordStarts inWord cs = 0 := by
  induction cs generalizing inWord with
  | nil => rfl
  | cons c cs ih =>
    obtain ⟨here, later⟩ := List.forall_mem_cons.mp unnamed
    simp only [wordStarts, here, ih later]
    rfl

theorem endsInWord_concat (inWord : Bool) (front : List Char) (last : Char) :
    endsInWord inWord (front ++ [last]) = isPathChar last := by
  rw [endsInWord, List.foldl_append]
  rfl

private theorem endsInWord_eq_false (present : cs ≠ []) (outside : ∀ c ∈ cs, isPathChar c = false) (inWord : Bool) :
    endsInWord inWord cs = false := by
  obtain ⟨front, last, rfl⟩ := (List.eq_nil_or_concat' cs).resolve_left present
  rw [endsInWord_concat]
  exact outside last (by simp)

/-- A letter behind other characters than those of paths starts a word. -/
theorem one_le_wordStarts (present : cs ≠ []) (outside : ∀ c ∈ cs, isPathChar c = false) {letter : Char}
    (starts : isNameStart letter) (ds : List Char) (inWord : Bool) : 1 ≤ wordStarts inWord (cs ++ letter :: ds) := by
  rw [wordStarts_append, endsInWord_eq_false present outside]
  simp only [wordStarts, starts]
  exact Nat.le_trans (Nat.le_add_right 1 _) (Nat.le_add_left _ _)

/-- A pass starts no word more than it finds, when nothing that it writes does. -/
theorem wordStarts_replacePhrases_le {α : Type} {recognise : Recogniser α} {spells : List Char → α → Prop}
    {write : α → List Char} (finds : Finds recognise spells)
    (ends : ∀ {source phrase}, spells source phrase → endsInWord false source = false)
    (fewer : ∀ source phrase back, spells source phrase →
      recognise none (source ++ back) = some (phrase, source.length) → ∀ inWord,
        wordStarts inWord (write phrase) ≤ wordStarts inWord source)
    (order : outer = true → inWord = true) (cs : List Char) :
    wordStarts inWord (replacePhrases recognise write cs) ≤ wordStarts outer cs := by
  induction cs using finds.reading generalizing inWord outer with
  | nil => exact Nat.le_refl _
  | char c cs nothing ih =>
    rw [finds.replacePhrases_of_none nothing]
    have here := wordStarts_le order [c]
    have later : wordStarts (isPathChar c) (replacePhrases recognise write cs) ≤ wordStarts (isPathChar c) cs := ih id
    simp only [wordStarts, Nat.add_zero] at here ⊢
    exact Nat.add_le_add here later
  | found source phrase back present spelled found ih =>
    rw [finds.replacePhrases_of_found present found, wordStarts_append, wordStarts_append]
    have outside : endsInWord outer source = false := by
      obtain ⟨d, source, rfl⟩ := List.exists_cons_of_ne_nil present
      exact ends spelled
    rw [outside]
    exact Nat.add_le_add ((fewer source phrase back spelled found inWord).trans (wordStarts_le order source))
      (ih (by simp))

end WordStarts

section Numbers

variable {text : List Char} {value : Value} {inWord : Bool}

/-- The text begins with a character that opens nothing. -/
def BeginsForeign (text : List Char) : Prop := ∃ c rest, text = c :: rest ∧ c ∉ openers

theorem IsNumberText.beginsForeign (number : IsNumberText text) : BeginsForeign text := by
  obtain ⟨c, rest, rfl⟩ := List.exists_cons_of_ne_nil number.ne_nil
  exact ⟨c, rest, rfl, (number.chars c List.mem_cons_self).of_all (· ∉ openers) (by decide)⟩

/-- Numbers that a variable may hold begin so too, the infinite and the undefined ones included. -/
theorem beginsForeign_render (number : value.isNumber) : BeginsForeign value.render := by
  cases value with
  | int n => exact (isNumberText_integerText n).beginsForeign
  | real x =>
    cases x with
    | finite negative size => exact (isNumberText_renderNumber rfl).beginsForeign
    | infinite negative => cases negative <;> exact ⟨_, _, rfl, by decide⟩
    | nan => exact ⟨_, _, rfl, by decide⟩
  | flag | text => cases number

/-- A number starts no word, with an exponent neither. -/
theorem wordStarts_rendered (m : Magnitude) (inWord : Bool) : wordStarts inWord m.rendered = 0 := by
  have unnamed : ∀ {cs : List Char}, (∀ d ∈ cs, d.isDigit ∨ d = '.') → ∀ d ∈ cs, isNameStart d = false ∧ isPathChar d := by
    intro cs digits d member
    have each : ∀ own ∈ '.' :: asciiDigits, isNameStart own = false ∧ isPathChar own := forall_of_all (by decide)
    exact each d (mem_of_digit (digits d member))
  by_cases plain : m.IsPlain
  · exact wordStarts_eq_zero (fun d member => (unnamed (isNumeral_rendered plain).chars d member).1) inWord
  · obtain ⟨mantissa, sign, exponent, eq, present, digits, signs, places⟩ := rendered_of_not_isPlain plain
    have inside : endsInWord inWord mantissa = true := by
      obtain ⟨front, last, rfl⟩ := (List.eq_nil_or_concat' mantissa).resolve_left present
      rw [endsInWord_concat]
      exact (unnamed digits last (by simp)).2
    have tail : wordStarts false exponent = 0 :=
      wordStarts_eq_zero (fun d member => (unnamed (fun own inner => Or.inl (places own inner)) d member).1) false
    have signed : isNameStart sign = false ∧ isPathChar sign = false := by rcases signs with rfl | rfl <;> decide
    rw [eq, wordStarts_append, inside, wordStarts_eq_zero (fun d member => (unnamed digits d member).1)]
    simp only [wordStarts, signed.1, signed.2, tail]
    decide

theorem IsNumberText.wordStarts_eq_zero (number : IsNumberText text) : wordStarts inWord text = 0 := by
  have minus : ∀ {cs : List Char}, wordStarts false cs = 0 → wordStarts inWord ('-' :: cs) = 0 := by
    intro cs none
    have sign : isNameStart '-' = false ∧ isPathChar '-' = false := by decide
    simp only [wordStarts, sign.1, sign.2, none]
    rfl
  rcases number with ⟨n, rfl⟩ | ⟨x, finite, rfl⟩
  · exact Formula.wordStarts_eq_zero (isNameStart_of_integerText n) inWord
  · rcases rendered_cases finite with ⟨m, _, eq⟩ | ⟨m, _, _, eq⟩
    · rw [eq, wordStarts_rendered]
    · rw [eq, minus (wordStarts_rendered m false)]

/-- An infinite or undefined number starts one word. -/
theorem wordStarts_render (number : value.isNumber) : wordStarts inWord value.render ≤ 1 := by
  have most : ∀ {text}, IsNumberText text → wordStarts inWord text ≤ 1 := fun finite =>
    finite.wordStarts_eq_zero.trans_le (Nat.zero_le 1)
  cases value with
  | int n => exact most (isNumberText_integerText n)
  | real x =>
    cases x with
    | finite negative size => exact most (isNumberText_renderNumber rfl)
    | infinite negative => cases negative <;> cases inWord <;> decide
    | nan => cases inWord <;> decide
  | flag | text => cases number

end Numbers

end Formula

end HeroSheet
