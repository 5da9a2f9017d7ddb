import HeroSheet.Proofs.Formula.Reading
import HeroSheet.Proofs.Number.Written
import Mathlib.Data.List.TakeWhile

namespace HeroSheet

namespace Formula

/-- The token stands for the symbol. -/
inductive Token.Means : Token → Symbol → Prop where
  | number {text : List Char} {value : Binary64} (position : Nat) (chars : ∀ c ∈ text, isNumeralChar c)
      (reads : readReal? text = some value) : Means ⟨.number, text, position⟩ (.number value)
  | operator (op : Operator) (position : Nat) :
      Means ⟨.operator, [op.symbol], position⟩ (.operator op.rolled)
  | function (f : Function) (position : Nat) : Means ⟨.function, f.name, position⟩ (.function f)
  | openParen (position : Nat) : Means ⟨.openParen, ['('], position⟩ .openParen
  | closeParen (position : Nat) : Means ⟨.closeParen, [')'], position⟩ .closeParen
  | comma (position : Nat) : Means ⟨.comma, [','], position⟩ .comma

/-- What is looked at as a numeral and writes a number consists of decimal digits and points. -/
theorem decimals_of_numerals {text : List Char} {value : Binary64} (chars : ∀ c ∈ text, isNumeralChar c)
    (reads : readReal? text = some value) : (∀ d ∈ text, isDecimal d ∨ d = '.') ∧ ∃ d ∈ text, isDecimal d :=
  decimals_of_readReal? (fun d member => (Bool.or_eq_true_iff.mp (chars d member)).imp_right beq_iff_eq.mp) reads

/-- The token stands for some symbol. -/
def Token.Sound (token : Token) : Prop := ∃ symbol, token.Means symbol

/-- The symbol of a sound token. -/
def Token.symbol (token : Token) : Symbol := (Symbol.ofToken? token).getD .comma

theorem Token.Means.ofToken? {token : Token} {symbol : Symbol} (means : token.Means symbol) :
    Symbol.ofToken? token = some symbol := by
  cases means with
  | number position chars reads => simp [Symbol.ofToken?, reads]
  | operator op position => cases op <;> rfl
  | function f position => cases f <;> rfl
  | openParen | closeParen | comma => rfl

theorem Token.Means.symbol_eq {token : Token} {symbol : Symbol} (means : token.Means symbol) :
    token.symbol = symbol := by
  rw [Token.symbol, means.ofToken?, Option.getD_some]

theorem Function.eq_of_ofName? {f : Function} {name : List Char} (found : Function.ofName? name = some f) :
    name = f.name :=
  (beq_iff_eq.mp (List.find?_some (p := fun f : Function => f.name == name) found)).symm

/-- What a token, or a blank, is at the front of `c :: cs`, and how many characters of `cs` it takes. -/
inductive Lexed (position : Nat) (c : Char) (cs : List Char) : Option Token → Nat → Prop where
  | blank (blank : isBlank c) : Lexed position c cs none 0
  | number {value : Binary64} (numeral : isNumeralChar c)
      (reads : readReal? (c :: cs.takeWhile isNumeralChar) = some value) :
      Lexed position c cs (some ⟨.number, c :: cs.takeWhile isNumeralChar, position⟩)
        (cs.takeWhile isNumeralChar).length
  | mark {kind : TokenKind} (here : symbolKind? c = some kind) :
      Lexed position c cs (some ⟨kind, [c], position⟩) 0
  | function {f : Function} {qualifier rest : List Char}
      (qualified : qualifier = [] ∨ qualifier = functionQualifier)
      (written : c :: cs = qualifier ++ (f.name ++ rest)) :
      Lexed position c cs (some ⟨.function, f.name, position⟩) (qualifier.length + f.name.length - 1)

section Lexed

variable {position more : Nat} {c : Char} {cs : List Char} {token? : Option Token}

theorem lexed_of_readToken (reads : readToken position c cs = .ok (token?, more)) :
    Lexed position c cs token? more := by
  unfold readToken at reads
  split at reads
  · rename_i blank
    obtain ⟨rfl, rfl⟩ := Prod.mk.inj (Except.ok.inj reads)
    exact .blank blank
  · split at reads
    · rename_i numeral
      simp only at reads
      split at reads
      · cases reads
      · rename_i value read
        split at reads
        · obtain ⟨rfl, rfl⟩ := Prod.mk.inj (Except.ok.inj reads)
          exact .number numeral read
        · cases reads
    · split at reads
      · rename_i kind here
        obtain ⟨rfl, rfl⟩ := Prod.mk.inj (Except.ok.inj reads)
        exact .mark here
      · simp only at reads
        split at reads
        · rename_i qualified
          split at reads
          · rename_i named
            obtain ⟨f, found⟩ := Option.isSome_iff_exists.mp (Bool.and_eq_true_iff.mp named).2
            obtain ⟨rfl, rfl⟩ := Prod.mk.inj (Except.ok.inj reads)
            obtain ⟨after, written⟩ := List.isPrefixOf_iff_prefix.mp qualified
            have name := Function.eq_of_ofName? found
            rw [name]
            have whole : c :: cs = functionQualifier ++ (f.name ++ after.dropWhile isLetter) := by
              rw [← name, ← written, List.drop_left, List.takeWhile_append_dropWhile]
            exact .function (Or.inr rfl) whole
          · cases reads
        · split at reads
          · rename_i named
            obtain ⟨f, found⟩ := Option.isSome_iff_exists.mp (Bool.and_eq_true_iff.mp named).2
            obtain ⟨rfl, rfl⟩ := Prod.mk.inj (Except.ok.inj reads)
            have name := Function.eq_of_ofName? found
            rw [name]
            have whole : c :: cs = [] ++ (f.name ++ (c :: cs).dropWhile isLetter) := by
              rw [← name, List.drop_zero, List.takeWhile_append_dropWhile, List.nil_append]
            exact .function (Or.inl rfl) whole
          · cases reads

/-- What only the symbols of rolled formulas start with. -/
def foreignMarks : List Char := ['d', 'D', '[', '%']

theorem Lexed.apart (lexed : Lexed position c cs token? more) : c ∉ foreignMarks := by
  intro foreign
  have none : ∀ c ∈ foreignMarks, isBlank c = false ∧ isNumeralChar c = false ∧ symbolKind? c = none ∧
      c ≠ 'M' ∧ ∀ f ∈ Function.all, f.name.head? ≠ some c := forall_of_all (by decide)
  obtain ⟨unblank, unnumbered, unmarked, unqualified, unnamed⟩ := none c foreign
  cases lexed with
  | blank blank => exact absurd blank (by simp [unblank])
  | number numeral reads => exact absurd numeral (by simp [unnumbered])
  | mark here => exact absurd here (by simp [unmarked])
  | @function f qualifier rest qualified written =>
    rcases qualified with rfl | rfl
    · refine unnamed f (by cases f <;> decide) ?_
      have head := congrArg List.head? written
      cases f <;> exact head.symm
    · exact unqualified (List.cons.inj written).1

/-- Every token that is read is sound. -/
theorem Lexed.sound {token : Token} (lexed : Lexed position c cs (some token) more) : token.Sound := by
  cases lexed with
  | number numeral reads =>
    refine ⟨_, .number position (fun d member => ?_) reads⟩
    rcases List.mem_cons.mp member with rfl | member
    · exact numeral
    · exact List.mem_takeWhile_imp member
  | mark here =>
    unfold symbolKind? at here
    split at here
    · obtain rfl := Option.some.inj here
      exact ⟨_, .operator .add position⟩
    · obtain rfl := Option.some.inj here
      exact ⟨_, .operator .sub position⟩
    · obtain rfl := Option.some.inj here
      exact ⟨_, .operator .mul position⟩
    · obtain rfl := Option.some.inj here
      exact ⟨_, .operator .div position⟩
    · obtain rfl := Option.some.inj here
      exact ⟨_, .openParen position⟩
    · obtain rfl := Option.some.inj here
      exact ⟨_, .closeParen position⟩
    · obtain rfl := Option.some.inj here
      exact ⟨_, .comma position⟩
    · cases here
  | @function f => exact ⟨_, .function f position⟩

theorem isNumeralChar_of_symbolKind? {kind : TokenKind} (here : symbolKind? c = some kind) :
    isNumeralChar c = false := by
  unfold symbolKind? at here
  split at here <;> first | rfl | cases here

/-- The characters of numerals start numerals only. -/
theorem Lexed.of_numeral (unblank : isBlank c = false) (numeral : isNumeralChar c)
    (lexed : Lexed position c cs token? more) :
    ∃ text, token? = some ⟨.number, text, position⟩ ∧ more = (cs.takeWhile isNumeralChar).length := by
  cases lexed with
  | blank blank => exact absurd blank (by simp [unblank])
  | number numeral reads => exact ⟨_, rfl, rfl⟩
  | mark here =>
    rw [isNumeralChar_of_symbolKind? here] at numeral
    cases numeral
  | @function f qualifier rest qualified written =>
    rcases qualified with rfl | rfl
    · cases f <;> obtain rfl := (List.cons.inj written).1 <;> cases numeral
    · obtain rfl := (List.cons.inj written).1
      cases numeral

theorem Lexed.width (lexed : Lexed position c cs token? more) : more ≤ cs.length := by
  cases lexed with
  | blank | mark => exact Nat.zero_le _
  | number => exact (List.takeWhile_prefix _).length_le
  | function qualified written =>
    have size := congrArg List.length written
    simp only [List.length_cons, List.length_append] at size
    omega

/-- The parentheses of a text. -/
def parens (cs : List Char) : List Char := cs.filter fun c => c == '(' || c == ')'

/-- A function takes its name and what qualifies it. -/
theorem take_function {f : Function} {qualifier rest : List Char} (written : c :: cs = qualifier ++ (f.name ++ rest)) :
    c :: cs.take (qualifier.length + f.name.length - 1) = qualifier ++ f.name := by
  have present : 0 < f.name.length := by cases f <;> decide
  have size : qualifier.length + f.name.length - 1 + 1 = (qualifier ++ f.name).length := by
    rw [List.length_append]
    omega
  rw [← List.take_succ_cons, size, written, ← List.append_assoc, List.take_left]

/-- The characters that are taken are those of the token, but for blanks and a qualifier. -/
theorem Lexed.written (lexed : Lexed position c cs token? more) :
    ∃ skipped, c :: cs.take more = skipped ++ token?.toList.flatMap Token.text ∧ parens skipped = [] := by
  cases lexed with
  | blank blank =>
    refine ⟨[c], by simp, ?_⟩
    have unmarked : c ≠ '(' ∧ c ≠ ')' := by
      constructor <;> (rintro rfl; cases blank)
    simp [parens, unmarked]
  | number numeral reads =>
    refine ⟨[], ?_, rfl⟩
    rw [List.prefix_iff_eq_take.mp (List.takeWhile_prefix isNumeralChar)]
    simp
  | mark here => exact ⟨[], by simp, rfl⟩
  | @function f qualifier rest qualified written =>
    refine ⟨qualifier, ?_, by rcases qualified with rfl | rfl <;> rfl⟩
    rw [take_function written]
    simp

end Lexed

section Parted

variable {position more : Nat} {c : Char} {cs rest : List Char} {token? : Option Token}

/-- The character is of a token other than a name. -/
def isNameless (c : Char) : Bool := isNumeralChar c || (symbolKind? c).isSome

/-- No token of the text goes on in what follows it: that starts otherwise, or no name ends the text. -/
structure Parted (cs rest : List Char) : Prop where
  apart : ∀ c ∈ rest.head?, isNumeralChar c = false ∧ c ∉ functionQualifier ∧ c ≠ '/'
  letters : ∀ c ∈ rest.head?, isLetter c →
    (∀ d ∈ cs, isNameless d) ∨ ∀ last ∈ cs.getLast?, isLetter last = false ∧ last ≠ '.'

theorem Parted.nil (cs : List Char) : Parted cs [] := ⟨by simp, by simp⟩

/-- No token goes on in a mark that is neither of a numeral nor of a name. -/
theorem Parted.mark {mark : Char} (apart : isNumeralChar mark = false ∧ mark ∉ functionQualifier ∧ mark ≠ '/')
    (unlettered : isLetter mark = false) (cs rest : List Char) : Parted cs (mark :: rest) := by
  refine ⟨?_, ?_⟩
  · rintro c ⟨⟩
    exact apart
  · rintro c ⟨⟩ letter
    rw [unlettered] at letter
    cases letter

theorem Parted.newline (cs : List Char) : Parted cs ['\n'] := .mark (by decide) rfl cs []

theorem Parted.suffix {ds : List Char} (parted : Parted cs rest) (suffix : ds <:+ cs) : Parted ds rest := by
  refine ⟨parted.apart, fun c here letter => (parted.letters c here letter).imp ?_ ?_⟩
  · exact fun nameless d member => nameless d (suffix.subset member)
  · rintro ends last final
    obtain ⟨front, rfl⟩ := suffix
    refine ends last ?_
    rw [List.getLast?_append, Option.mem_def.mp final, Option.some_or]
    rfl

theorem takeWhile_append_of_ends {inClass : Char → Bool}
    (ends : (∀ c ∈ cs, inClass c) → ∀ c ∈ rest.head?, inClass c = false) :
    (cs ++ rest).takeWhile inClass = cs.takeWhile inClass := by
  rw [List.takeWhile_append]
  split
  · rename_i whole
    have all : cs.takeWhile inClass = cs := (List.takeWhile_prefix inClass).eq_of_length whole
    have stops := ends (List.takeWhile_eq_self_iff.mp all)
    rw [all]
    cases rest with
    | nil => exact List.append_nil cs
    | cons c rest => rw [List.takeWhile_cons_of_neg (by simp [stops c rfl]), List.append_nil]
  · rfl

theorem isPrefixOf_append_of_head {word : List Char} (apart : ∀ c ∈ rest.head?, c ∉ word) :
    word.isPrefixOf (cs ++ rest) = word.isPrefixOf cs := by
  induction word generalizing cs with
  | nil => simp
  | cons d word ih =>
    cases cs with
    | nil =>
      cases rest with
      | nil => rfl
      | cons c rest =>
        have other : d ≠ c := fun same => apart c rfl (same ▸ List.mem_cons_self)
        simp [List.isPrefixOf, other]
    | cons c cs =>
      have later : word.isPrefixOf (cs ++ rest) = word.isPrefixOf cs :=
        ih fun c here member => apart c here (List.mem_cons_of_mem d member)
      simp [List.isPrefixOf, later]

theorem takeWhile_name (qualifier : List Char) (present : cs ≠ [])
    (letters : ∀ c ∈ rest.head?, isLetter c → ∀ last ∈ cs.getLast?, isLetter last = false ∧ last ≠ '.')
    (qualified : qualifier = [] ∨ qualifier = functionQualifier) (starts : qualifier <+: cs) :
    ((cs ++ rest).drop qualifier.length).takeWhile isLetter =
      (cs.drop qualifier.length).takeWhile isLetter := by
  obtain ⟨name, rfl⟩ := starts
  rw [List.append_assoc, List.drop_left, List.drop_left]
  refine takeWhile_append_of_ends fun small d here => ?_
  by_contra letter
  have last := letters d here (by simpa using letter)
  rcases name.eq_nil_or_concat' with rfl | ⟨front, d, rfl⟩
  · rcases qualified with rfl | rfl
    · exact present rfl
    · exact (last '.' (by decide)).2 rfl
  · have final : d ∈ (qualifier ++ (front ++ [d])).getLast? := by simp
    have own := small d (by simp)
    rw [(last d final).1] at own
    cases own

/-- What is read at the front of a text is read there when more follows. -/
theorem readToken_append (parted : Parted (c :: cs) rest) :
    readToken position c (cs ++ rest) = readToken position c cs := by
  have numerals : (cs ++ rest).takeWhile isNumeralChar = cs.takeWhile isNumeralChar :=
    takeWhile_append_of_ends fun _ d here => (parted.apart d here).1
  have qualified : functionQualifier.isPrefixOf (c :: cs ++ rest) = functionQualifier.isPrefixOf (c :: cs) :=
    isPrefixOf_append_of_head fun d here => (parted.apart d here).2.1
  rw [List.cons_append] at qualified
  unfold readToken
  simp only [numerals, qualified]
  by_cases nameless : isNameless c
  · rcases Bool.or_eq_true_iff.mp nameless with numeral | mark
    · simp only [numeral, if_true]
    · obtain ⟨kind, here⟩ := Option.isSome_iff_exists.mp mark
      simp only [here]
  · have letters : ∀ d ∈ rest.head?, isLetter d →
        ∀ last ∈ (c :: cs).getLast?, isLetter last = false ∧ last ≠ '.' := fun d here letter =>
      (parted.letters d here letter).resolve_left fun all => nameless (all c List.mem_cons_self)
    have name : ((c :: (cs ++ rest)).drop
          (if functionQualifier.isPrefixOf (c :: cs) = true then functionQualifier.length else 0)).takeWhile isLetter =
        ((c :: cs).drop
          (if functionQualifier.isPrefixOf (c :: cs) = true then functionQualifier.length else 0)).takeWhile
            isLetter := by
      split
      · rename_i starts
        exact takeWhile_name functionQualifier (by simp) letters (Or.inr rfl) (List.isPrefixOf_iff_prefix.mp starts)
      · exact takeWhile_name [] (by simp) letters (Or.inl rfl) List.nil_prefix
    simp only [name]

/-- Where a text stands does not matter for what is read. -/
theorem readToken_position (own : Nat) (reads : readToken position c cs = .ok (token?, more)) :
    readToken own c cs = .ok (token?.map fun token => ⟨token.kind, token.text, own⟩, more) := by
  have same : (readToken own c cs).toOption = (readToken position c cs).toOption.map fun read =>
      (read.1.map fun token => ⟨token.kind, token.text, own⟩, read.2) := by
    unfold readToken
    split
    · rfl
    · split
      · simp only
        split
        · rfl
        · split <;> rfl
      · split
        · rfl
        · simp only
          split <;> split <;> rfl
  rw [reads] at same
  cases again : readToken own c cs with
  | error fault =>
    rw [again] at same
    cases same
  | ok read =>
    rw [again] at same
    exact congrArg Except.ok (Option.some.inj same)

end Parted

end Formula

end HeroSheet
