import HeroSheet.Number.Numeral
import HeroSheet.Proofs.Number.Shortest
import HeroSheet.Proofs.Text.LowerCase
import Mathlib.Data.List.Induction
import Mathlib.Data.List.TakeWhile

namespace HeroSheet

theorem forall_of_all {α : Type} {p : α → Prop} [DecidablePred p] {cs : List α} (all : cs.all fun c => p c) :
    ∀ c ∈ cs, p c := fun c member => of_decide_eq_true (List.all_eq_true.mp all c member)

/-- The digits of decimal numerals, without those of other scripts. -/
def asciiDigits : List Char := ['0', '1', '2', '3', '4', '5', '6', '7', '8', '9']

section Digits

variable {c : Char} {cs ds fs rest : List Char}

theorem mem_asciiDigits (digit : c.isDigit) : c ∈ asciiDigits := by
  have bounds : 48 ≤ c.toNat ∧ c.toNat ≤ 57 := by
    simp only [Char.isDigit, Bool.and_eq_true, decide_eq_true_eq, ge_iff_le] at digit
    exact digit
  have listed : ∀ n, 48 ≤ n → n ≤ 57 → Char.ofNat n ∈ asciiDigits := by
    intro n low high
    have cases : n ∈ [48, 49, 50, 51, 52, 53, 54, 55, 56, 57] := by
      simp only [List.mem_cons, List.not_mem_nil, or_false]
      omega
    revert n
    decide
  rw [← Char.ofNat_toNat c]
  exact listed _ bounds.1 bounds.2

theorem cases_of_isDecimal (decimal : isDecimal c) :
    c ∈ asciiDigits ∨ ∃ first ∈ decimalZeros, first ≤ c.toNat ∧ c.toNat ≤ first + 9 := by
  unfold isDecimal digitValue? at decimal
  split at decimal
  · split at decimal
    · rename_i digit
      exact Or.inl (mem_asciiDigits digit)
    · cases decimal
  · rw [Option.isSome_map] at decimal
    obtain ⟨first, found⟩ := Option.isSome_iff_exists.mp decimal
    have within := List.find?_some found
    simp only [Bool.and_eq_true, decide_eq_true_eq] at within
    exact Or.inr ⟨first, List.mem_of_find?_eq_some found, within⟩

/-- What holds of the digits of all scripts holds of a decimal digit. -/
theorem of_isDecimal {p : Char → Bool} (decimal : isDecimal c) (ascii : asciiDigits.all p)
    (others : decimalZeros.all fun first => (List.range 10).all fun place => p (Char.ofNat (first + place))) :
    p c := by
  rcases cases_of_isDecimal decimal with member | ⟨first, member, low, high⟩
  · exact List.all_eq_true.mp ascii c member
  · have place := List.all_eq_true.mp (List.all_eq_true.mp others first member) (c.toNat - first)
      (List.mem_range.mpr (by omega))
    rwa [Nat.add_sub_cancel' low, Char.ofNat_toNat] at place

/-- A digit is one of a numeral, or stands in one of the ranges of the other ones. -/
theorem cases_of_isAnyDigit (digit : isAnyDigit c) :
    isDecimal c ∨ ∃ range ∈ otherDigitRanges, range.1 ≤ c.toNat ∧ c.toNat ≤ range.2 := by
  rcases Bool.or_eq_true_iff.mp digit with decimal | listed
  · exact Or.inl decimal
  · obtain ⟨range, member, within⟩ := List.any_eq_true.mp (Bool.and_eq_true_iff.mp listed).2
    simp only [Bool.and_eq_true, decide_eq_true_eq] at within
    exact Or.inr ⟨range, member, within⟩

theorem of_isAnyDigit {p : Char → Bool} (digit : isAnyDigit c) (others : otherDigitRanges.all fun range =>
      (List.range (range.2 + 1 - range.1)).all fun place => p (Char.ofNat (range.1 + place))) :
    isDecimal c ∨ p c := by
  refine (cases_of_isAnyDigit digit).imp_right ?_
  rintro ⟨range, member, low, high⟩
  have place := List.all_eq_true.mp (List.all_eq_true.mp others range member)
    (c.toNat - range.1) (List.mem_range.mpr (by omega))
  rwa [Nat.add_sub_cancel' low, Char.ofNat_toNat] at place

private theorem lowerChar_of_isAnyDigit (digit : isAnyDigit c) : lowerChar c = [c] := by
  have small : ∀ d ∈ asciiDigits, lowerChar d = [d] := forall_of_all (by decide)
  have zeros : ∀ first ∈ decimalZeros, 128 ≤ first ∧ (first + 9 < 0x130 ∨ 0x130 < first) ∧
      ∀ run ∈ capitalRuns, run.2.1 < first ∨ first + 9 < run.1 := forall_of_all (by decide +kernel)
  have ranges : ∀ range ∈ otherDigitRanges, 128 ≤ range.1 ∧ (range.2 < 0x130 ∨ 0x130 < range.1) ∧
      ∀ run ∈ capitalRuns, run.2.1 < range.1 ∨ range.2 < run.1 := forall_of_all (by decide +kernel)
  rcases cases_of_isAnyDigit digit with decimal | ⟨range, member, low, high⟩
  · rcases cases_of_isDecimal decimal with ascii | ⟨first, member, low, high⟩
    · exact small c ascii
    · obtain ⟨large, dotless, runs⟩ := zeros first member
      exact lowerChar_of_apart low high large dotless runs
  · obtain ⟨large, dotless, runs⟩ := ranges range member
    exact lowerChar_of_apart low high large dotless runs

theorem not_isBlank_of_isDecimal {c : Char} (decimal : isDecimal c) : isBlank c = false := by
  have solid : (!isBlank c) = true :=
    of_isDecimal (p := fun d => !isBlank d) decimal (by decide +kernel) (by decide +kernel)
  simpa using solid

theorem digitValue?_of_isDigit (digit : c.isDigit) : digitValue? c = some (c.toNat - 48) := by
  have values : ∀ d ∈ asciiDigits, digitValue? d = some (d.toNat - 48) :=
    forall_of_all (by decide)
  exact values c (mem_asciiDigits digit)

/-- The text stops what its digits would go on to be read as. -/
def EndsDigits (rest : List Char) : Prop := ∀ c ∈ rest.head?, digitValue? c = none ∧ c ≠ '_'

theorem endsDigits_nil : EndsDigits [] := by simp [EndsDigits]

private theorem digitSpan_of_ends (inside : Bool) (ends : EndsDigits rest) :
    digitSpan inside rest = ([], rest) := by
  cases rest with
  | nil => rfl
  | cons c cs =>
    obtain ⟨none, apart⟩ := ends c rfl
    simp [digitSpan, none, apart]

theorem digitSpan_digits (inside : Bool) (digits : ∀ c ∈ ds, c.isDigit) (ends : EndsDigits rest) :
    digitSpan inside (ds ++ rest) = (ds.filterMap digitValue?, rest) := by
  induction ds generalizing inside with
  | nil => exact digitSpan_of_ends inside ends
  | cons c cs ih =>
    have value := digitValue?_of_isDigit (digits c List.mem_cons_self)
    have later := ih true fun d member => digits d (List.mem_cons_of_mem c member)
    simp only [List.cons_append, digitSpan, value, later, List.filterMap_cons]

private theorem digitsValue_append (values more : List Nat) :
    digitsValue (values ++ more) = digitsValue values * 10 ^ more.length + digitsValue more := by
  induction more using List.reverseRecOn with
  | nil => simp [digitsValue]
  | append_singleton more d ih =>
    have step : ∀ values : List Nat, digitsValue (values ++ [d]) = 10 * digitsValue values + d := by
      intro values
      simp [digitsValue]
    rw [← List.append_assoc, step, step, ih, List.length_append, List.length_singleton, pow_succ]
    ring

theorem length_filterMap_digits (digits : ∀ c ∈ ds, c.isDigit) :
    (ds.filterMap digitValue?).length = ds.length := by
  induction ds with
  | nil => rfl
  | cons c cs ih =>
    rw [List.filterMap_cons, digitValue?_of_isDigit (digits c List.mem_cons_self)]
    simp only [List.length_cons, ih fun d member => digits d (List.mem_cons_of_mem c member)]

theorem digitsNumber_append (ds fs : List Char) (digits : ∀ c ∈ fs, c.isDigit) :
    digitsNumber (ds ++ fs) = digitsNumber ds * 10 ^ fs.length + digitsNumber fs := by
  rw [digitsNumber, List.filterMap_append, digitsValue_append, length_filterMap_digits digits]
  rfl

end Digits

theorem isDigit_of_mem_naturalText {n : Nat} {c : Char} (member : c ∈ naturalText n) : c.isDigit :=
  Nat.isDigit_of_mem_toDigits (by decide) (by decide) member

theorem naturalText_ne_nil (n : Nat) : naturalText n ≠ [] := Nat.toDigits_ne_nil

/-- The digits of a number write the number. -/
theorem digitsNumber_naturalText (n : Nat) : digitsNumber (naturalText n) = n := by
  have one : ∀ d < 10, digitsNumber [Nat.digitChar d] = d := by decide
  induction n using Nat.strongRecOn with
  | ind n ih =>
    by_cases small : n < 10
    · rw [naturalText, Nat.toDigits_of_lt_base small, one n small]
    · have split := Nat.toDigits_of_base_le (b := 10) (by decide) (Nat.le_of_not_lt small)
      have last : ∀ c ∈ [Nat.digitChar (n % 10)], c.isDigit := by
        intro c member
        refine isDigit_of_mem_naturalText (n := n) (c := c) ?_
        rw [naturalText, split]
        exact List.mem_append_right _ member
      rw [naturalText, split, digitsNumber_append _ _ last, one _ (Nat.mod_lt n (by decide))]
      have shorter := ih (n / 10) (by omega)
      rw [naturalText] at shorter
      rw [shorter, List.length_singleton]
      omega

/-- The signs in front of numerals, the first letters of words for numbers, and the letter with two small forms. -/
def numberMarks : List Char := ['-', '+', 'i', 'n', capitalSigma]

/-- A character in front of a numeral that is neither blank nor a sign nor the start of a word. -/
def startsNumeral (c : Char) : Bool := !isWhiteSpace c && lowerChar c == [c] && !numberMarks.contains c

/-- Text that starts as a numeral and ends with no blank is read as a decimal. -/
theorem readReal?_eq_readDecimal? {first last : Char} {cs : List Char} (starts : startsNumeral first)
    (ends : (first :: cs).getLast? = some last) (unspaced : isWhiteSpace last = false) :
    readReal? (first :: cs) = (readDecimal? (first :: cs)).map (Decimal.toBinary64 false) := by
  simp only [startsNumeral, Bool.and_eq_true, Bool.not_eq_true', beq_iff_eq] at starts
  obtain ⟨⟨solid, small⟩, other⟩ := starts
  have apart : first ∉ numberMarks := by simpa using other
  simp only [numberMarks, List.mem_cons, List.not_mem_nil, or_false, not_or] at apart
  obtain ⟨minus, plus, letterI, letterN, sigma⟩ := apart
  have stripped : Text.strip isWhiteSpace (first :: cs) = first :: cs := by
    have front : (first :: cs).dropWhile isWhiteSpace = first :: cs := by
      rw [List.dropWhile_cons_of_neg (by simp [solid])]
    obtain ⟨start, eq⟩ := List.getLast?_eq_some_iff.mp ends
    rw [Text.strip, Text.stripEnd, front, eq, List.reverse_append, List.reverse_singleton,
      List.singleton_append, List.dropWhile_cons_of_neg (by simp [unspaced]), List.reverse_cons,
      List.reverse_reverse]
  have unsigned : signSpan (first :: cs) = (false, first :: cs) := by
    unfold signSpan
    split
    · rename_i same
      exact absurd (List.cons.inj same).1 minus
    · rename_i same
      exact absurd (List.cons.inj same).1 plus
    · rfl
  have lower : Text.lower (first :: cs) = first :: lowerAfter [first] cs := by
    rw [Text.lower, lowerAfter, if_neg sigma, small]
    rfl
  have word : ∀ w : String, w.toList.head? ≠ some first →
      String.ofList (Text.lower (first :: cs)) ≠ w := by
    rintro w apart rfl
    rw [lower, String.toList_ofList] at apart
    exact apart rfl
  have inf : String.ofList (Text.lower (first :: cs)) ≠ "inf" := word _ (by simpa using Ne.symm letterI)
  have infinity : String.ofList (Text.lower (first :: cs)) ≠ "infinity" :=
    word _ (by simpa using Ne.symm letterI)
  have nan : String.ofList (Text.lower (first :: cs)) ≠ "nan" := word _ (by simpa using Ne.symm letterN)
  unfold readReal?
  simp only [stripped, unsigned, inf, infinity, nan, or_self, if_false]

/-- Text that starts and ends with a digit has nothing around its numeral and is no word. -/
theorem readReal?_eq {first last : Char} {cs : List Char} (starts : first.isDigit)
    (ends : (first :: cs).getLast? = some last) (digit : last.isDigit) :
    readReal? (first :: cs) = (readDecimal? (first :: cs)).map (Decimal.toBinary64 false) := by
  have plain : ∀ d ∈ asciiDigits, startsNumeral d ∧ isWhiteSpace d = false := forall_of_all (by decide +kernel)
  exact readReal?_eq_readDecimal? (plain first (mem_asciiDigits starts)).1 ends (plain last (mem_asciiDigits digit)).2

section Numeral

variable {c : Char} {cs text : List Char}

theorem digitSpan_eq (inside : Bool) (plain : '_' ∉ cs) :
    digitSpan inside cs = ((cs.takeWhile isDecimal).filterMap digitValue?, cs.dropWhile isDecimal) := by
  induction cs generalizing inside with
  | nil => rfl
  | cons c cs ih =>
    obtain ⟨apart, plain⟩ := not_or.mp (mt List.mem_cons.mpr plain)
    cases value : digitValue? c with
    | none =>
      have other : ¬ isDecimal c := by simp [isDecimal, value]
      rw [List.takeWhile_cons_of_neg other, List.dropWhile_cons_of_neg other]
      simp [digitSpan, value, Ne.symm apart]
    | some d =>
      have decimal : isDecimal c := by simp [isDecimal, value]
      rw [List.takeWhile_cons_of_pos decimal, List.dropWhile_cons_of_pos decimal, List.filterMap_cons, value]
      simp only [digitSpan, value, ih true plain]

theorem startsNumeral_of_numeral (numeral : isAnyDigit c ∨ c = '.') : startsNumeral c := by
  rcases numeral with digit | rfl
  · have small : lowerChar c = [c] := lowerChar_of_isAnyDigit digit
    have plain : (!isWhiteSpace c && !numberMarks.contains c) = true :=
      (of_isAnyDigit (p := fun d => !isWhiteSpace d && !numberMarks.contains d) digit (by decide +kernel)).elim
        (fun decimal => of_isDecimal (p := fun d => !isWhiteSpace d && !numberMarks.contains d) decimal
          (by decide +kernel) (by decide +kernel)) id
    obtain ⟨solid, apart⟩ := Bool.and_eq_true_iff.mp plain
    simp only [startsNumeral, solid, small, apart, beq_self_eq_true, Bool.and_self]
  · decide +kernel

variable (numeral : ∀ d ∈ text, isAnyDigit d ∨ d = '.')
include numeral

private theorem readReal?_of_numeral : readReal? text = (readDecimal? text).map (Decimal.toBinary64 false) := by
  cases text with
  | nil => decide +kernel
  | cons first cs =>
    have last := List.getLast?_eq_some_getLast (List.cons_ne_nil first cs)
    have ending := startsNumeral_of_numeral (numeral _ (List.getLast_mem (List.cons_ne_nil first cs)))
    simp only [startsNumeral, Bool.and_eq_true, Bool.not_eq_true'] at ending
    exact readReal?_eq_readDecimal? (startsNumeral_of_numeral (numeral first List.mem_cons_self)) last ending.1.1

theorem eq_nil_of_readExponent? {exponent : Int} (reads : readExponent? text = some exponent) : text = [] := by
  cases text with
  | nil => rfl
  | cons c cs =>
    have apart : ¬ (c == 'e' || c == 'E') = true := by
      rw [Bool.or_eq_true, beq_iff_eq, beq_iff_eq]
      rintro (rfl | rfl) <;> exact absurd (numeral _ List.mem_cons_self) (by decide)
    rw [readExponent?, if_neg apart] at reads
    cases reads

private theorem shape_of_readDecimal? {decimal : Decimal} (reads : readDecimal? text = some decimal) :
    ∃ whole fraction, (∀ d ∈ whole ++ fraction, isDecimal d) ∧ whole ++ fraction ≠ [] ∧
      (text = whole ∧ fraction = [] ∨ text = whole ++ '.' :: fraction) := by
  have plain : ∀ cs ⊆ text, '_' ∉ cs := fun cs within member => absurd (numeral '_' (within member)) (by decide)
  have digits : ∀ cs : List Char, ∀ d ∈ cs.takeWhile isDecimal, isDecimal d := fun _ _ => List.mem_takeWhile_imp
  have parts := List.takeWhile_append_dropWhile (p := isDecimal) (l := text)
  have behind : text.dropWhile isDecimal ⊆ text := (List.dropWhile_suffix isDecimal).subset
  unfold readDecimal? at reads
  rw [digitSpan_eq false (plain text (List.Subset.refl text))] at reads
  simp only at reads
  split at reads
  · rename_i rest point
    have within : rest ⊆ text := fun d member => behind (point ▸ List.mem_cons_of_mem '.' member)
    rw [digitSpan_eq false (plain rest within)] at reads
    split at reads
    · cases reads
    · rename_i present
      obtain ⟨exponent, last, _⟩ := Option.map_eq_some_iff.mp reads
      have whole := eq_nil_of_readExponent?
        (fun d member => numeral d (within ((List.dropWhile_suffix isDecimal).subset member))) last
      have fraction := List.takeWhile_append_dropWhile (p := isDecimal) (l := rest)
      rw [whole, List.append_nil] at fraction
      refine ⟨text.takeWhile isDecimal, rest.takeWhile isDecimal,
        List.forall_mem_append.mpr ⟨digits text, digits rest⟩, fun none => present ?_, Or.inr ?_⟩
      · obtain ⟨front, back⟩ := List.append_eq_nil_iff.mp none
        rw [front, back]
        rfl
      · rw [fraction, ← point, parts]
  · split at reads
    · cases reads
    · rename_i present
      obtain ⟨exponent, last, _⟩ := Option.map_eq_some_iff.mp reads
      have whole := eq_nil_of_readExponent? (fun d member => numeral d (behind member)) last
      rw [whole, List.append_nil] at parts
      refine ⟨text.takeWhile isDecimal, [], by simpa using digits text, fun none => present ?_, Or.inl ⟨parts.symm, rfl⟩⟩
      rw [List.append_nil] at none
      rw [none]
      rfl

/-- Points and digits that write a number are those of a numeral, with a digit at least. -/
theorem decimals_of_readReal? {value : Binary64} (reads : readReal? text = some value) :
    (∀ d ∈ text, isDecimal d ∨ d = '.') ∧ ∃ d ∈ text, isDecimal d := by
  rw [readReal?_of_numeral numeral] at reads
  obtain ⟨decimal, reads, _⟩ := Option.map_eq_some_iff.mp reads
  obtain ⟨whole, fraction, digits, present, shape⟩ := shape_of_readDecimal? numeral reads
  obtain ⟨first, member⟩ := List.exists_mem_of_ne_nil _ present
  obtain ⟨front, back⟩ := List.forall_mem_append.mp digits
  rcases shape with ⟨rfl, rfl⟩ | rfl
  · exact ⟨fun d inside => Or.inl (front d inside), first, by simpa using member, digits first member⟩
  · refine ⟨fun d inside => ?_, first, ?_, digits first member⟩
    · rcases List.mem_append.mp inside with inside | inside
      · exact Or.inl (front d inside)
      · exact (List.mem_cons.mp inside).symm.imp_left (back d)
    · rcases List.mem_append.mp member with inside | inside
      · exact List.mem_append_left _ inside
      · exact List.mem_append_right _ (List.mem_cons_of_mem '.' inside)

end Numeral

theorem digits_isEmpty {ds : List Char} (digits : ∀ c ∈ ds, c.isDigit) (present : ds ≠ []) :
    (ds.filterMap digitValue?).isEmpty = false := by
  cases ds with
  | nil => exact absurd rfl present
  | cons c cs =>
    rw [List.filterMap_cons, digitValue?_of_isDigit (digits c List.mem_cons_self)]
    rfl

private theorem readDecimal?_whole {ds : List Char} (digits : ∀ c ∈ ds, c.isDigit) (present : ds ≠ []) :
    readDecimal? ds = some ⟨digitsNumber ds, 0⟩ := by
  have whole := digitSpan_digits false digits endsDigits_nil
  rw [List.append_nil] at whole
  unfold readDecimal?
  simp [whole, digits_isEmpty digits present, readExponent?, digitsNumber]

private theorem readDecimal?_fraction {ds fs : List Char} (digits : ∀ c ∈ ds, c.isDigit) (present : ds ≠ [])
    (places : ∀ c ∈ fs, c.isDigit) :
    readDecimal? (ds ++ '.' :: fs) = some ⟨digitsNumber (ds ++ fs), -(fs.length : Int)⟩ := by
  have point : EndsDigits ('.' :: fs) := by
    rintro c ⟨⟩
    decide
  have whole := digitSpan_digits false digits point
  have fraction := digitSpan_digits false places endsDigits_nil
  rw [List.append_nil] at fraction
  unfold readDecimal?
  simp [whole, fraction, digits_isEmpty digits present, readExponent?, digitsNumber,
    length_filterMap_digits places]

theorem digitsNumber_zeros (count : Nat) : digitsNumber (List.replicate count '0') = 0 := by
  induction count with
  | zero => rfl
  | succ count ih =>
    have one : digitsNumber ['0'] = 0 := by decide
    rw [List.replicate_succ', digitsNumber_append _ _ (by simp), ih, one, Nat.zero_mul]

namespace Magnitude

/-- Where the point of a magnitude stands, counted from the front of its digits. -/
def place (m : Magnitude) : Int :=
  (naturalText (Decimal.shortest m).digits).length + (Decimal.shortest m).exponent

/-- The magnitude is written without an exponent. -/
def IsPositional (m : Magnitude) : Prop := -4 < m.place ∧ m.place ≤ 16

instance (m : Magnitude) : Decidable m.IsPositional := inferInstanceAs (Decidable (_ ∧ _))

/-- Digits around a point that read back as a magnitude. -/
structure Writes (m : Magnitude) (whole fraction : List Char) : Prop where
  wholeDigits : ∀ c ∈ whole, c.isDigit
  wholePresent : whole ≠ []
  fractionDigits : ∀ c ∈ fraction, c.isDigit
  fractionPresent : fraction ≠ []
  value : Decimal.toBinary64 false ⟨digitsNumber (whole ++ fraction), -(fraction.length : Int)⟩ =
    .finite false m

section Writes

variable {m : Magnitude} {ds : List Char} {exponent : Int}

private theorem isDigit_of_mem_zeros {count : Nat} {c : Char} (member : c ∈ List.replicate count '0') :
    c.isDigit := by
  rw [List.eq_of_mem_replicate member]
  decide

private theorem writes_pointBefore (digits : ∀ c ∈ ds, c.isDigit) (present : ds ≠ [])
    (back : Decimal.toBinary64 false ⟨digitsNumber ds, exponent⟩ = .finite false m)
    (front : (ds.length : Int) + exponent ≤ 0) :
    m.Writes ['0'] (List.replicate (-(ds.length + exponent)).toNat '0' ++ ds) := by
  refine ⟨by simp, by simp, ?_, by simp [present], ?_⟩
  · intro c member
    rcases List.mem_append.mp member with zero | digit
    · exact isDigit_of_mem_zeros zero
    · exact digits c digit
  · have size : -((List.replicate (-(ds.length + exponent)).toNat '0' ++ ds).length : Int) = exponent := by
      rw [List.length_append, List.length_replicate]
      omega
    have zero : digitsNumber ['0'] = 0 := by decide
    rw [size, ← List.append_assoc, digitsNumber_append _ _ digits, digitsNumber_append ['0'] _ (by simp), zero,
      digitsNumber_zeros, Nat.zero_mul, Nat.zero_add, Nat.zero_mul, Nat.zero_add, back]

private theorem writes_pointBehind (digits : ∀ c ∈ ds, c.isDigit) (present : ds ≠ [])
    (back : Decimal.toBinary64 false ⟨digitsNumber ds, exponent⟩ = .finite false m)
    (behind : (ds.length : Int) ≤ ds.length + exponent) :
    m.Writes (ds ++ List.replicate ((ds.length + exponent).toNat - ds.length) '0') ['0'] := by
  refine ⟨?_, by simp [present], by simp, by simp, ?_⟩
  · intro c member
    rcases List.mem_append.mp member with digit | zero
    · exact digits c digit
    · exact isDigit_of_mem_zeros zero
  · rw [List.append_assoc, ← List.replicate_one, List.replicate_append_replicate,
      digitsNumber_append _ _ (by simp), digitsNumber_zeros, List.length_replicate, List.length_replicate,
      Nat.add_zero, Decimal.toBinary64_shift]
    have places : -((1 : Nat) : Int) + ((((ds.length : Int) + exponent).toNat - ds.length + 1 : Nat) : Int) =
        exponent := by omega
    rw [places, back]

private theorem writes_pointAmong (digits : ∀ c ∈ ds, c.isDigit)
    (back : Decimal.toBinary64 false ⟨digitsNumber ds, exponent⟩ = .finite false m)
    (front : 0 < (ds.length : Int) + exponent) (behind : (ds.length : Int) + exponent < ds.length) :
    m.Writes (ds.take (ds.length + exponent).toNat) (ds.drop (ds.length + exponent).toNat) := by
  refine ⟨fun c member => digits c (List.mem_of_mem_take member), ?_,
    fun c member => digits c (List.mem_of_mem_drop member), ?_, ?_⟩
  · refine List.ne_nil_of_length_pos ?_
    rw [List.length_take]
    omega
  · refine List.ne_nil_of_length_pos ?_
    rw [List.length_drop]
    omega
  · have size : -((ds.drop (ds.length + exponent).toNat).length : Int) = exponent := by
      rw [List.length_drop]
      omega
    rw [size, List.take_append_drop, back]

end Writes

private theorem text_of_isPositional {m : Magnitude} (positional : m.IsPositional) :
    ∃ whole fraction, m.text = whole ++ '.' :: fraction ∧ m.Writes whole fraction := by
  obtain ⟨low, high⟩ := positional
  have back := Decimal.toBinary64_shortest m
  unfold place at low high
  unfold text
  generalize Decimal.shortest m = d at low high back ⊢
  obtain ⟨n, exponent⟩ := d
  simp only at low high ⊢
  have digits : ∀ c ∈ naturalText n, c.isDigit := fun c => isDigit_of_mem_naturalText
  have present := naturalText_ne_nil n
  rw [← digitsNumber_naturalText n] at back
  generalize naturalText n = ds at low high digits present back ⊢
  rw [if_pos ⟨low, high⟩]
  split
  · rename_i front
    exact ⟨_, _, rfl, writes_pointBefore digits present back front⟩
  · rename_i front
    split
    · rename_i behind
      exact ⟨_, _, rfl, writes_pointBehind digits present back (by omega)⟩
    · rename_i behind
      exact ⟨_, _, rfl, writes_pointAmong digits back (by omega) (by omega)⟩

/-- Other text has an exponent behind digits, perhaps with a point among them. -/
theorem text_of_not_isPositional {m : Magnitude} (exponential : ¬ m.IsPositional) :
    ∃ mantissa sign exponent, m.text = mantissa ++ 'e' :: sign :: exponent ∧ mantissa ≠ [] ∧
      (∀ c ∈ mantissa, c.isDigit ∨ c = '.') ∧ (sign = '-' ∨ sign = '+') ∧ ∀ c ∈ exponent, c.isDigit := by
  unfold IsPositional place at exponential
  unfold text
  simp only
  rw [if_neg exponential]
  have digits : ∀ c ∈ naturalText (Decimal.shortest m).digits, c.isDigit :=
    fun c => isDigit_of_mem_naturalText
  have present := naturalText_ne_nil (Decimal.shortest m).digits
  refine ⟨_, _, _, rfl, ?_, ?_, ?_, ?_⟩
  · split
    · contradiction
    · simp
    · simp
  · split
    · simp
    · rename_i c written
      rw [written] at digits
      exact fun c member => Or.inl (digits c member)
    · rename_i c cs _ written
      rw [written] at digits
      intro d member
      rcases List.mem_cons.mp member with rfl | member
      · exact Or.inl (digits d List.mem_cons_self)
      · rcases List.mem_cons.mp member with rfl | member
        · exact Or.inr rfl
        · exact Or.inl (digits d (List.mem_cons_of_mem c member))
  · split
    · exact Or.inl rfl
    · exact Or.inr rfl
  · intro c member
    split at member
    · rcases List.mem_cons.mp member with rfl | digit
      · decide
      · exact isDigit_of_mem_naturalText digit
    · exact isDigit_of_mem_naturalText member

end Magnitude

theorem readReal?_digits {ds : List Char} (digits : ∀ c ∈ ds, c.isDigit) (present : ds ≠ []) :
    readReal? ds = some (Decimal.toBinary64 false ⟨digitsNumber ds, 0⟩) := by
  cases ds with
  | nil => exact absurd rfl present
  | cons first cs =>
    have ends := List.getLast?_eq_some_getLast present
    rw [readReal?_eq (digits first List.mem_cons_self) ends (digits _ (List.getLast_mem present)),
      readDecimal?_whole digits present]
    rfl

theorem Magnitude.Writes.readReal? {m : Magnitude} {whole fraction : List Char}
    (writes : m.Writes whole fraction) :
    readReal? (whole ++ '.' :: fraction) = some (.finite false m) := by
  have read := readDecimal?_fraction writes.wholeDigits writes.wholePresent writes.fractionDigits
  have ends : (whole ++ '.' :: fraction).getLast? = some (fraction.getLast writes.fractionPresent) := by
    rw [List.getLast?_append, List.getLast?_cons, List.getLast?_eq_some_getLast writes.fractionPresent]
    rfl
  have digit := writes.fractionDigits _ (List.getLast_mem writes.fractionPresent)
  have value := writes.value
  have starts := writes.wholeDigits
  have present := writes.wholePresent
  cases whole with
  | nil => exact absurd rfl present
  | cons first cs =>
    rw [List.cons_append] at ends read ⊢
    rw [readReal?_eq (starts first List.mem_cons_self) ends digit, read, Option.map_some, value]

/-- A text of digits and points that reads as a number. -/
structure IsNumeral (cs : List Char) (x : Binary64) : Prop where
  present : cs ≠ []
  chars : ∀ c ∈ cs, c.isDigit ∨ c = '.'
  value : readReal? cs = some x

namespace Magnitude

theorem units_of_isWhole {m : Magnitude} (whole : m.isWhole) : m.floor * unitsPerOne = m.units :=
  Nat.div_mul_cancel (Nat.dvd_of_mod_eq_zero (of_decide_eq_true whole))

theorem isWhole_of_units_eq_zero {m : Magnitude} (zero : m.units = 0) : m.isWhole := by
  simp [isWhole, zero]

theorem floor_of_units_eq_zero {m : Magnitude} (zero : m.units = 0) : m.floor = 0 := by
  rw [floor, zero, Nat.zero_div]

theorem floor_pos {m : Magnitude} (whole : m.isWhole) (nonzero : m.units ≠ 0) : 0 < m.floor := by
  refine Nat.pos_of_ne_zero fun none => nonzero ?_
  rw [← units_of_isWhole whole, none, Nat.zero_mul]

theorem isNumeral_floor {m : Magnitude} (whole : m.isWhole) :
    IsNumeral (naturalText m.floor) (.finite false m) := by
  have digits : ∀ c ∈ naturalText m.floor, c.isDigit := fun c => isDigit_of_mem_naturalText
  refine ⟨naturalText_ne_nil _, fun c member => Or.inl (digits c member), ?_⟩
  rw [readReal?_digits digits (naturalText_ne_nil _), digitsNumber_naturalText, Decimal.toBinary64_eq,
    Binary64.ofDecimal_eq, ← Binary64.ofUnits_magnitude]
  have one : m.floor * power 10 0 = m.floor := Nat.mul_one _
  rw [Int.toNat_zero, one, units_of_isWhole whole]
  rfl

theorem isNumeral_text {m : Magnitude} (positional : m.IsPositional) :
    IsNumeral m.text (.finite false m) := by
  obtain ⟨whole, fraction, written, writes⟩ := text_of_isPositional positional
  rw [written]
  refine ⟨by simp, fun c member => ?_, writes.readReal?⟩
  rcases List.mem_append.mp member with digit | member
  · exact Or.inl (writes.wholeDigits c digit)
  · rcases List.mem_cons.mp member with point | digit
    · exact Or.inr point
    · exact Or.inl (writes.fractionDigits c digit)

end Magnitude

end HeroSheet
