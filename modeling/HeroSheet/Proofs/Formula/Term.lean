import HeroSheet.Proofs.Formula.Reading
import HeroSheet.Proofs.Outcome

namespace HeroSheet

namespace Formula

open PhraseReader

/-- The terms have the same total, whatever the dice show. -/
def Term.Alike (term other : Term) : Prop :=
  ∀ faces before, term.total faces before = other.total faces before

theorem Term.Alike.symm {term other : Term} (alike : term.Alike other) : other.Alike term :=
  fun faces before => (alike faces before).symm

theorem Term.Alike.binary {left other : Term} (op : Dice.Operator) (right : Term)
    (alike : left.Alike other) : (Term.binary op left right).Alike (.binary op other right) := by
  intro faces before
  rw [Term.total, Term.total, alike faces before]

mutual

/-- The expression as a term without dice. -/
def Expr.term : Expr → Term
  | .number value => .number value
  | .neg operand => .neg operand.term
  | .binary op left right => .binary op.rolled left.term right.term
  | .call f args => .call f (Expr.terms args)

def Expr.terms : List Expr → List Term
  | [] => []
  | arg :: args => arg.term :: Expr.terms args

end

theorem Expr.terms_eq (args : List Expr) : Expr.terms args = args.map Expr.term := by
  induction args with
  | nil => rfl
  | cons arg args ih => rw [Expr.terms, ih, List.map_cons]

theorem finite?_of_finiteOnly {x y : Binary64} (ok : finiteOnly x = .ok y) : finite? x = some y := by
  unfold finiteOnly at ok
  unfold finite?
  split at ok
  · rename_i finite
    rw [if_pos finite, Except.ok.inj ok]
  · cases ok

theorem isFinite_of_finite? {x y : Binary64} (some : finite? x = some y) : y.isFinite := by
  unfold finite? at some
  split at some
  · rename_i finite
    obtain rfl := Option.some.inj some
    exact finite
  · cases some

theorem value_binary {op : Operator} {left right : Expr} {x : Binary64}
    (ok : (Expr.binary op left right).value = .ok x) :
    ∃ a b, left.value = .ok a ∧ right.value = .ok b ∧ (op = .div → b.isZero = false) ∧
      finiteOnly (op.apply a b) = .ok x := by
  cases op with
  | div =>
    rw [Expr.value] at ok
    obtain ⟨b, second, ok⟩ := bind_eq_ok_iff.mp ok
    split at ok
    · cases ok
    · rename_i nonzero
      obtain ⟨a, first, ok⟩ := bind_eq_ok_iff.mp ok
      exact ⟨a, b, first, second, fun _ => by simpa using nonzero, ok⟩
  | add | sub | mul =>
    simp only [Expr.value] at ok
    obtain ⟨a, first, ok⟩ := bind_eq_ok_iff.mp ok
    obtain ⟨b, second, ok⟩ := bind_eq_ok_iff.mp ok
    exact ⟨a, b, first, second, (nomatch ·), ok⟩

theorem value_call {f : Function} {args : List Expr} {x : Binary64}
    (ok : (Expr.call f args).value = .ok x) :
    ∃ values, valuesOf args = .ok values ∧ f.result? values = some x := by
  cases f with
  | max | min =>
    simp only [Expr.value] at ok
    obtain ⟨values, inner, ok⟩ := bind_eq_ok_iff.mp ok
    split at ok
    · cases ok
    · exact ⟨_, inner, finite?_of_finiteOnly ok⟩
  | floor | ceil | round =>
    match args with
    | [] => simp [Expr.value] at ok
    | [arg] =>
      simp only [Expr.value] at ok
      obtain ⟨value, inner, ok⟩ := bind_eq_ok_iff.mp ok
      refine ⟨[value], by simp [valuesOf, inner, bind, Except.bind], ?_⟩
      split at ok
      · rename_i n rounded
        rw [Function.result?, rounded, Option.bind_some]
        · exact finite?_of_finiteOnly ok
        · simp
        · simp
      · cases ok
    | first :: second :: others => simp [Expr.value] at ok

private theorem isFinite_of_result? {f : Function} {values : List Binary64} {x : Binary64}
    (applied : f.result? values = some x) : x.isFinite := by
  unfold Function.result? at applied
  split at applied
  · exact isFinite_of_finite? applied
  · exact isFinite_of_finite? applied
  · obtain ⟨n, _, finite⟩ := Option.bind_eq_some_iff.mp applied
    exact isFinite_of_finite? finite
  · cases applied

/-- Every value is finite. -/
theorem isFinite_of_value {e : Expr} {x : Binary64} (ok : e.value = .ok x) : x.isFinite := by
  cases e with
  | number value =>
    rw [Expr.value] at ok
    exact isFinite_of_finite? (finite?_of_finiteOnly ok)
  | neg operand =>
    rw [Expr.value] at ok
    obtain ⟨y, _, ok⟩ := bind_eq_ok_iff.mp ok
    exact isFinite_of_finite? (finite?_of_finiteOnly ok)
  | binary op left right =>
    obtain ⟨_, _, _, _, _, applied⟩ := value_binary ok
    exact isFinite_of_finite? (finite?_of_finiteOnly applied)
  | call f args =>
    obtain ⟨values, _, applied⟩ := value_call ok
    exact isFinite_of_result? applied

section Total

variable {faces : Dice.Faces} {before : Nat}

private theorem total_binary {op : Operator} {left right : Term} {a b x : Binary64}
    (first : left.total faces before = some (a, before))
    (second : right.total faces before = some (b, before)) (divides : op = .div → b.isZero = false)
    (ok : finiteOnly (op.apply a b) = .ok x) :
    (Term.binary op.rolled left right).total faces before = some (x, before) := by
  have nonzero : op.rolled.divides = true → b.isZero = false := by
    cases op with
    | div => exact fun _ => divides rfl
    | _ => exact fun impossible => nomatch impossible
  have same : op.rolled.applyReal a b = op.apply a b := by cases op <;> rfl
  rw [Term.total]
  simpa [first, second, same, finite?_of_finiteOnly ok] using nonzero

private theorem total_call {f : Function} {args : List Term} {values : List Binary64} {x : Binary64}
    (inner : totals faces before args = some (values, before)) (ok : f.result? values = some x) :
    (Term.call f args).total faces before = some (x, before) := by
  rw [Term.total]
  simp [inner, ok]

end Total

mutual

/-- Without dice the total is the value. -/
theorem total_term (faces : Dice.Faces) (before : Nat) :
    ∀ (e : Expr) {x : Binary64}, e.value = .ok x → e.term.total faces before = some (x, before)
  | .number value, x, ok => by
    rw [Expr.value] at ok
    rw [Expr.term, Term.total, finite?_of_finiteOnly ok]
    rfl
  | .neg operand, x, ok => by
    rw [Expr.value] at ok
    obtain ⟨y, inner, ok⟩ := bind_eq_ok_iff.mp ok
    rw [Expr.term, Term.total]
    simp [total_term faces before operand inner, finite?_of_finiteOnly ok]
  | .binary op left right, x, ok => by
    obtain ⟨a, b, first, second, divides, applied⟩ := value_binary ok
    exact total_binary (total_term faces before left first) (total_term faces before right second) divides
      applied
  | .call f args, x, ok => by
    obtain ⟨values, inner, applied⟩ := value_call ok
    exact total_call (totals_terms faces before args inner) applied

theorem totals_terms (faces : Dice.Faces) (before : Nat) :
    ∀ (es : List Expr) {xs : List Binary64}, valuesOf es = .ok xs →
      totals faces before (Expr.terms es) = some (xs, before)
  | [], xs, ok => by
    rw [valuesOf] at ok
    rw [Expr.terms, totals, Except.ok.inj ok]
  | e :: es, xs, ok => by
    rw [valuesOf] at ok
    obtain ⟨x, first, ok⟩ := bind_eq_ok_iff.mp ok
    obtain ⟨ys, others, ok⟩ := bind_eq_ok_iff.mp ok
    rw [Expr.terms, totals, ← Except.ok.inj ok]
    simp [total_term faces before e first, totals_terms faces before es others]

end

/-- What a factor may be, by what its inner factors are. -/
inductive Factor (inner : TermReader) : List Symbol → Term → List Symbol → Prop where
  | number {value : Binary64} {rest after : List Symbol} {term : Term}
      (counts : (counted (.number value) rest).1 = (term, after)) :
      Factor inner (.number value :: rest) term after
  | die {sides : Nat} {keeps : List Dice.Keep} {rest : List Symbol} :
      Factor inner (.die sides keeps :: rest) (.dice (.number (.ofInt 1)) sides keeps) rest
  | plus {rest after : List Symbol} {term : Term} (reads : Reads inner rest term after) :
      Factor inner (.operator .add :: rest) term after
  | minus {rest after : List Symbol} {operand : Term} (reads : Reads inner rest operand after) :
      Factor inner (.operator .sub :: rest) (.neg operand) after
  | group {rest after last : List Symbol} {content term : Term}
      (reads : Reads (sumTerm inner) rest content (.closeParen :: after))
      (counts : (counted content after).1 = (term, last)) :
      Factor inner (.openParen :: rest) term last
  | call {f : Function} {rest after last : List Symbol} {args : List Term} {term : Term}
      (reads : Reads (arguments (sumTerm inner)) rest args (.closeParen :: after))
      (accepted : f.accepts args.length) (counts : (counted (.call f args) after).1 = (term, last)) :
      Factor inner (.function f :: .openParen :: rest) term last

theorem length_of_counted {operand term : Term} {symbols after : List Symbol}
    (counts : (counted operand symbols).1 = (term, after)) : after.length ≤ symbols.length := by
  have bound := (counted operand symbols).2
  rw [counts] at bound
  exact bound

section Primary

variable {inner : TermReader} {symbols rest : List Symbol} {term : Term}

private theorem factor_of_reads (reads : Reads (primaryTerm inner) symbols term rest) :
    Factor inner symbols term rest := by
  obtain ⟨shorter, taken⟩ := reads
  unfold primaryTerm at taken
  split at taken
  · exact .number (congrArg Subtype.val (Except.ok.inj taken))
  · obtain ⟨rfl, rfl⟩ := Prod.mk.inj (congrArg Subtype.val (Except.ok.inj taken))
    exact .die
  · split at taken
    · cases taken
    · rename_i read shorter reads
      obtain rfl := congrArg Subtype.val (Except.ok.inj taken)
      exact .plus ⟨shorter, reads⟩
  · split at taken
    · cases taken
    · rename_i operand after behind reads
      obtain ⟨rfl, rfl⟩ := Prod.mk.inj (congrArg Subtype.val (Except.ok.inj taken))
      exact .minus ⟨behind, reads⟩
  · split at taken
    · rename_i content after shorter reads
      exact .group ⟨shorter, reads⟩ (congrArg Subtype.val (Except.ok.inj taken))
    · cases taken
  · split at taken
    · rename_i args after shorter reads
      split at taken
      · rename_i accepted
        exact .call ⟨shorter, reads⟩ accepted (congrArg Subtype.val (Except.ok.inj taken))
      · cases taken
    · cases taken
  · cases taken

theorem Factor.reads (factor : Factor inner symbols term rest) :
    Reads (primaryTerm inner) symbols term rest := by
  cases factor with
  | number counts =>
    exact ⟨Nat.lt_succ_of_le (length_of_counted counts), congrArg Except.ok (Subtype.ext counts)⟩
  | die => exact ⟨Nat.lt_succ_self _, rfl⟩
  | plus reads =>
    obtain ⟨shorter, reads⟩ := reads
    exact ⟨Nat.lt_succ_of_lt shorter, by simp only [primaryTerm, reads]⟩
  | minus reads =>
    obtain ⟨shorter, reads⟩ := reads
    exact ⟨Nat.lt_succ_of_lt shorter, by simp only [primaryTerm, reads]⟩
  | group reads counts =>
    obtain ⟨shorter, reads⟩ := reads
    have bound := length_of_counted counts
    refine ⟨by simp only [List.length_cons] at shorter ⊢; omega, ?_⟩
    simp only [primaryTerm, reads]
    exact congrArg Except.ok (Subtype.ext counts)
  | call reads accepted counts =>
    obtain ⟨shorter, reads⟩ := reads
    have bound := length_of_counted counts
    refine ⟨by simp only [List.length_cons] at shorter ⊢; omega, ?_⟩
    simp only [primaryTerm, reads, accepted, if_true]
    exact congrArg Except.ok (Subtype.ext counts)

end Primary

section Room

variable {inner other : TermReader} {size : Nat}

theorem reads_sumTerm_mono
    (inners : ∀ {symbols term rest}, symbols.length ≤ size → Reads inner symbols term rest →
      Reads other symbols term rest)
    {symbols rest : List Symbol} {term : Term} (small : symbols.length ≤ size)
    (reads : Reads (sumTerm inner) symbols term rest) : Reads (sumTerm other) symbols term rest :=
  Reads.chain_mono (fun small => Reads.chain_mono inners small) small reads

private theorem reads_arguments_mono
    (inners : ∀ {symbols term rest}, symbols.length ≤ size → Reads inner symbols term rest →
      Reads other symbols term rest)
    {symbols rest : List Symbol} {args : List Term} (small : symbols.length ≤ size)
    (reads : Reads (arguments inner) symbols args rest) : Reads (arguments other) symbols args rest := by
  refine Reads.chain_mono (fun small reads => ?_) small reads
  obtain ⟨arg, rfl, first⟩ := reads_single_iff.mp reads
  exact reads_single_iff.mpr ⟨arg, rfl, inners small first⟩

theorem Factor.mono {symbols rest : List Symbol} {term : Term} (factor : Factor inner symbols term rest)
    (small : symbols.length ≤ size + 1)
    (inners : ∀ {symbols term rest}, symbols.length ≤ size → Reads inner symbols term rest →
      Reads other symbols term rest) : Factor other symbols term rest := by
  cases factor with
  | number counts => exact .number counts
  | die => exact .die
  | plus reads => exact .plus (inners (Nat.le_of_succ_le_succ small) reads)
  | minus reads => exact .minus (inners (Nat.le_of_succ_le_succ small) reads)
  | group reads counts =>
    exact .group (reads_sumTerm_mono inners (Nat.le_of_succ_le_succ small) reads) counts
  | call reads accepted counts =>
    refine .call (reads_arguments_mono (reads_sumTerm_mono inners) ?_ reads) accepted counts
    simp only [List.length_cons] at small
    omega

/-- Factors nest no deeper than there are symbols. -/
theorem reads_factorTerm_of_reads {room more : Nat} {symbols rest : List Symbol} {term : Term}
    (reads : Reads (factorTerm room) symbols term rest) (enough : symbols.length ≤ more) :
    Reads (factorTerm more) symbols term rest := by
  induction room generalizing more symbols term rest with
  | zero =>
    obtain ⟨_, impossible⟩ := reads
    cases impossible
  | succ room ih =>
    have shorter := reads.shorter
    obtain ⟨less, rfl⟩ : ∃ less, more = less + 1 := ⟨more - 1, by omega⟩
    exact ((factor_of_reads reads).mono enough fun small inner => ih inner small).reads

theorem reads_sumTerm_of_reads {room more : Nat} {symbols rest : List Symbol} {term : Term}
    (reads : Reads (sumTerm (factorTerm room)) symbols term rest) (enough : symbols.length ≤ more) :
    Reads (sumTerm (factorTerm more)) symbols term rest :=
  reads_sumTerm_mono (fun small inner => reads_factorTerm_of_reads inner (Nat.le_trans small enough))
    (Nat.le_refl _) reads

theorem readTerm?_eq_some_iff {symbols : List Symbol} {term : Term} :
    readTerm? symbols = some term ↔ ∃ room, Reads (sumTerm (factorTerm room)) symbols term [] := by
  constructor
  · intro read
    unfold readTerm? at read
    split at read
    · rename_i own shorter reads
      obtain rfl := Option.some.inj read
      exact ⟨_, shorter, reads⟩
    · cases read
  · rintro ⟨room, reads⟩
    obtain ⟨shorter, taken⟩ := reads_sumTerm_of_reads reads (Nat.le_refl _)
    unfold readTerm?
    simp only [taken]

end Room

end Formula

end HeroSheet
