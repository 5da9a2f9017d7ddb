import HeroSheet.Proofs.Formula.Arithmetic
import HeroSheet.Proofs.Formula.References
import HeroSheet.Proofs.Number.Integer

/-!
Values in place of names. Names are replaced one after the other, longer ones first, in the whole text; what comes
out is the text of the expression with a factor for each name, since marks part the leaves, no name reaches into
another one that is as long, and values have no letters.
-/

namespace HeroSheet

namespace Formula

open Text

/-- A text that is one path. -/
structure PathName where
  text : List Char
  whole : isPath text = true

/-- A leaf of arithmetic in a formula. -/
inductive Leaf where
  | numeral (numeral : Numeral)
  | name (path : PathName)

def Numeral.ofNat (n : Nat) : Numeral where
  text := naturalText n
  value := .ofInt n
  present := naturalText_ne_nil n
  chars c member := by
    have decimals : ∀ d ∈ asciiDigits, isDecimal d := forall_of_all (by decide)
    exact Or.inl (decimals c (mem_asciiDigits (isDigit_of_mem_naturalText member)))
  reads := readReal?_naturalText n

theorem Numeral.text_ofNat (n : Nat) : (ofNat n).text = naturalText n := by
  rw [ofNat]

theorem Numeral.value_ofNat (n : Nat) : (ofNat n).value = .ofInt n := by
  rw [ofNat]

/-- The tree of an integer: a number, or a minus sign and a number when it is below zero. -/
def integerTree (n : Int) : Expr := if n < 0 then .neg (.number (.ofInt (-n))) else .number (.ofInt n)

namespace Arithmetic

/-- An integer as a factor. -/
def ofInt (n : Int) : Arithmetic Numeral .factor :=
  if n < 0 then .minus (.leaf (.ofNat n.natAbs)) else .leaf (.ofNat n.natAbs)

section Integer

variable {n : Int}

theorem text_ofInt (n : Int) : (ofInt n).text Numeral.text = integerText n := by
  unfold ofInt
  split
  · rename_i below
    have negative : -(n.natAbs : Int) = n := by omega
    have written := integerText_neg (Int.natAbs_pos.mpr (Int.ne_of_lt below))
    rw [negative] at written
    simp only [text, Numeral.text_ofNat, written]
  · rename_i above
    obtain ⟨k, rfl⟩ := Int.eq_ofNat_of_zero_le (Int.not_lt.mp above)
    simp only [text, Numeral.text_ofNat, Int.natAbs_natCast]
    rfl

theorem tree_ofInt (n : Int) : (ofInt n).tree Numeral.tree = integerTree n := by
  unfold ofInt integerTree
  split
  · rename_i below
    have same : (n.natAbs : Int) = -n := by omega
    simp only [tree, Numeral.tree, Numeral.value_ofNat, same]
  · rename_i above
    have same : (n.natAbs : Int) = n := by omega
    simp only [tree, Numeral.tree, Numeral.value_ofNat, same]

theorem value_number {x : Binary64} (finite : x.isFinite) : (Expr.number x).value = .ok x := by
  rw [Expr.value, finiteOnly, if_pos finite]

private theorem value_neg_number {x : Binary64} (finite : x.isFinite) : (Expr.neg (.number x)).value = .ok (-x) := by
  have negated : finiteOnly (-x) = .ok (-x) := if_pos ((Binary64.isFinite_neg x).trans finite)
  rw [Expr.value, value_number finite]
  exact negated

theorem value_integerTree (finite : (Binary64.ofInt n).isFinite) : (integerTree n).value = .ok (.ofInt n) := by
  unfold integerTree
  split
  · rename_i below
    have same : (n.natAbs : Int) = -n := by omega
    have size := (Binary64.isFinite_ofInt_natAbs n).trans finite
    have signed := Binary64.ofInt_of_neg below
    rw [same] at size signed
    rw [value_neg_number size, ← signed]
  · exact value_number finite

theorem isFinite_of_mem_ofInt (finite : (Binary64.ofInt n).isFinite) :
    ∀ numeral ∈ (ofInt n).leaves, numeral.value.isFinite := by
  have size : (Numeral.ofNat n.natAbs).value.isFinite := by
    rw [Numeral.value_ofNat, Binary64.isFinite_ofInt_natAbs, finite]
  unfold ofInt
  split
  · exact List.forall_mem_singleton.mpr size
  · exact List.forall_mem_singleton.mpr size

end Integer

end Arithmetic

namespace Leaf

def text : Leaf → List Char
  | .numeral n => n.text
  | .name path => path.text

/-- The numeral, or the value of the name as a factor. -/
def replaced (values : List Char → Int) : Leaf → Arithmetic Numeral .factor
  | .numeral n => .leaf n
  | .name path => .ofInt (values path.text)

/-- The tree of the numeral or of the value of the name. -/
def tree (values : List Char → Int) : Leaf → Expr
  | .numeral n => .number n.value
  | .name path => integerTree (values path.text)

/-- The numeral, or the value of the name, as one number. -/
def number (values : List Char → Int) : Leaf → Expr
  | .numeral n => .number n.value
  | .name path => .number (.ofInt (values path.text))

/-- The name, if the leaf is one. -/
def names : Leaf → List (List Char)
  | .numeral _ => []
  | .name path => [path.text]

end Leaf

section Marks

open Arithmetic

variable {α β : Type} {recognise : Recogniser α} {spells : List Char → α → Prop} {rank : Rank}
  (finds : Finds recognise spells) (parted : ∀ cs, ∀ c ∈ marks, PartedBy recognise cs c)
include finds parted

theorem replacePhrases_mark {new : α → List Char} {c : Char} (mark : c ∈ marks) (cs : List Char) :
    replacePhrases recognise new (c :: cs) = c :: replacePhrases recognise new cs :=
  finds.replacePhrases_append (parted [] c mark) cs

private theorem replacePhrases_text {new : α → List Char} (write : β → List Char) (e : Arithmetic β rank) :
    replacePhrases recognise new (e.text write) = e.text fun b => replacePhrases recognise new (write b) := by
  induction e with
  | leaf b => rfl
  | minus operand ih =>
    rw [text, replacePhrases_mark finds parted (by decide), ih]
    rfl
  | group inner ih =>
    rw [text, replacePhrases_mark finds parted (by decide),
      finds.replacePhrases_append (parted _ ')' (by decide)), ih]
    rfl
  | alone only ih => exact ih
  | binary op own left right first second =>
    have mark : op.symbol ∈ marks := by cases op <;> decide
    rw [text, finds.replacePhrases_append (parted _ op.symbol mark), first, second]
    rfl

/-- What does not reach over marks is found leaf by leaf. -/
theorem phrases_text (write : β → List Char) (e : Arithmetic β rank) :
    phrases (pieces recognise (e.text write)) = e.leaves.flatMap fun b => phrases (pieces recognise (write b)) := by
  have behind : ∀ {c : Char}, c ∈ marks → ∀ cs rest, phrases (pieces recognise (cs ++ c :: rest)) =
      phrases (pieces recognise cs) ++ phrases (pieces recognise rest) := by
    intro c mark cs rest
    rw [finds.pieces_append (parted cs c mark), phrases_append]
    rfl
  induction e with
  | leaf b => exact (List.append_nil _).symm
  | minus operand ih => exact (behind (by decide) [] _).trans ih
  | group inner ih =>
    refine ((behind (by decide) [] _).trans (behind (by decide) _ [])).trans ?_
    exact (List.append_nil _).trans ih
  | alone only ih => exact ih
  | binary op own left right first second =>
    have mark : op.symbol ∈ marks := by cases op <;> decide
    rw [text, behind mark, first, second, leaves, List.flatMap_append]

end Marks

section Path

variable {name : List Char}

theorem exists_of_isPath (whole : isPath name) : ∃ c rest, name = c :: rest ∧ isNameStart c :=
  starts_of_pathSpan? (beq_iff_eq.mp whole)

theorem ne_nil_of_isPath (whole : isPath name) : name ≠ [] := by
  obtain ⟨c, rest, rfl, _⟩ := exists_of_isPath whole
  exact List.cons_ne_nil c rest

theorem not_mem_of_isPath (whole : isPath name) : ∀ c ∈ marks, c ∉ name := by
  have other : ∀ c ∈ marks, isPathChar c = false := forall_of_all (by decide)
  intro c mark member
  have char := isPathChar_of_isPath whole c member
  rw [other c mark] at char
  cases char

private theorem not_isInfix_of_unnamed {cs : List Char} (whole : isPath name)
    (unnamed : ∀ c ∈ cs, isNameStart c = false) :
    ¬ name <:+: cs := by
  obtain ⟨c, rest, rfl, starts⟩ := exists_of_isPath whole
  intro inside
  have plain := unnamed c (inside.subset List.mem_cons_self)
  rw [plain] at starts
  cases starts

theorem isNameStart_of_isDecimal {c : Char} (decimal : isDecimal c) : isNameStart c = false := by
  have unnamed : (!isNameStart c) = true :=
    of_isDecimal (p := fun d => !isNameStart d) decimal (by decide +kernel) (by decide +kernel)
  simpa using unnamed

theorem isNameStart_of_numeral (numeral : Numeral) : ∀ c ∈ numeral.text, isNameStart c = false := by
  intro c member
  rcases numeral.chars c member with decimal | rfl
  · exact isNameStart_of_isDecimal decimal
  · rfl

theorem isNameStart_of_integerText (n : Int) : ∀ c ∈ integerText n, isNameStart c = false := by
  have unnamed : ∀ d ∈ '-' :: asciiDigits, isNameStart d = false := forall_of_all (by decide)
  exact fun c member => unnamed c (mem_of_mem_integerText member)

/-- Text without letters holds no path. -/
theorem findsNothing_path {cs : List Char} (unnamed : ∀ c ∈ cs, isNameStart c = false) : FindsNothing path cs := by
  intro s suffix
  cases s with
  | nil => rfl
  | cons c s =>
    have other := unnamed c (suffix.subset List.mem_cons_self)
    simp only [path, pathSpan?, other, Bool.false_eq_true, if_false, Option.map_none]

/-- The paths of a leaf are its name. -/
theorem phrases_leaf (leaf : Leaf) : phrases (pieces path leaf.text) = leaf.names := by
  cases leaf with
  | numeral numeral => exact finds_path.phrases_eq_nil (findsNothing_path (isNameStart_of_numeral numeral))
  | name own =>
    have read : pathSpan? own.text = some own.text := beq_iff_eq.mp own.whole
    have found : path none own.text = some (own.text, own.text.length) := congrArg (Option.map _) read
    have whole := pieces_of_whole (ne_nil_of_isPath own.whole) found
    change phrases (pieces path own.text) = [own.text]
    rw [whole]
    rfl

end Path

section Splice

/-- The text with the value of each entry for its name, one entry after the other. -/
def splice (entries : List (List Char × Value)) (cs : List Char) : List Char :=
  entries.foldl (fun text entry => replaceAll entry.1 entry.2.render text) cs

variable {entries : List (List Char × Value)} {cs name : List Char} {value : Value}

/-- Leaf by leaf. -/
theorem splice_text {β : Type} {rank : Rank} (paths : ∀ entry ∈ entries, isPath entry.1) (write : β → List Char)
    (e : Arithmetic β rank) : splice entries (e.text write) = e.text fun b => splice entries (write b) := by
  induction entries generalizing write with
  | nil => rfl
  | cons entry entries ih =>
    obtain ⟨whole, others⟩ := List.forall_mem_cons.mp paths
    have first : replaceAll entry.1 entry.2.render (e.text write) =
        e.text fun b => replaceAll entry.1 entry.2.render (write b) :=
      replacePhrases_text (finds_word (ne_nil_of_isPath whole))
        (fun _ c mark => partedBy_word (not_mem_of_isPath whole c mark)) write e
    have later := ih others fun b => replaceAll entry.1 entry.2.render (write b)
    exact (congrArg (splice entries) first).trans later

/-- A text without letters stays. -/
theorem splice_eq_self (paths : ∀ entry ∈ entries, isPath entry.1) (unnamed : ∀ c ∈ cs, isNameStart c = false) :
    splice entries cs = cs := by
  induction entries with
  | nil => rfl
  | cons entry entries ih =>
    obtain ⟨whole, others⟩ := List.forall_mem_cons.mp paths
    have first : replaceAll entry.1 entry.2.render cs = cs :=
      replaceAll_eq_self (ne_nil_of_isPath whole) (not_isInfix_of_unnamed whole unnamed)
    exact (congrArg (splice entries) first).trans (ih others)

/-- A name becomes its value: entries before its own are of names as long as it or longer, and entries after that
find no letters. -/
theorem splice_name (value : Value) (sorted : entries.Pairwise fun a b => b.1.length ≤ a.1.length)
    (paths : ∀ entry ∈ entries, isPath entry.1) (same : ∀ entry ∈ entries, entry.1 = name → entry.2 = value)
    (member : (name, value) ∈ entries) (unnamed : ∀ c ∈ value.render, isNameStart c = false) :
    splice entries name = value.render := by
  induction entries with
  | nil => cases member
  | cons entry entries ih =>
    obtain ⟨whole, others⟩ := List.forall_mem_cons.mp paths
    obtain ⟨longest, sorted⟩ := List.pairwise_cons.mp sorted
    have present := ne_nil_of_isPath whole
    by_cases own : entry.1 = name
    · have first : replaceAll entry.1 entry.2.render name = value.render := by
        rw [← own, replaceAll_self present, same entry List.mem_cons_self own]
      exact (congrArg (splice entries) first).trans (splice_eq_self others unnamed)
    · have behind : (name, value) ∈ entries := by
        rcases List.mem_cons.mp member with rfl | later
        · exact absurd rfl own
        · exact later
      have absent : ¬ entry.1 <:+: name := fun inside =>
        own (inside.eq_of_length (Nat.le_antisymm inside.length_le (longest _ behind)))
      have first : replaceAll entry.1 entry.2.render name = name := replaceAll_eq_self present absent
      exact (congrArg (splice entries) first).trans
        (ih sorted others (fun own member => same own (List.mem_cons_of_mem entry member)) behind)

end Splice

end Formula

end HeroSheet
