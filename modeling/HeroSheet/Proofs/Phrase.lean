import HeroSheet.Phrase
import Mathlib.Data.List.Basic

namespace HeroSheet

namespace PhraseReader

variable {ε σ ω α : Type}

/-- The reader takes `read` from the front of symbols and leaves `rest`. -/
def Reads (reader : PhraseReader ε σ α) (symbols : List σ) (read : α) (rest : List σ) : Prop :=
  ∃ shorter, reader symbols = .ok ⟨(read, rest), shorter⟩

theorem Reads.shorter {reader : PhraseReader ε σ α} {symbols rest : List σ} {read : α}
    (reads : Reads reader symbols read rest) : rest.length < symbols.length :=
  reads.1

theorem Reads.unique {reader : PhraseReader ε σ α} {symbols rest own : List σ} {read other : α}
    (reads : Reads reader symbols read rest) (again : Reads reader symbols other own) :
    read = other ∧ rest = own := by
  obtain ⟨_, first⟩ := reads
  obtain ⟨_, second⟩ := again
  have same := congrArg Subtype.val (Except.ok.inj (first.symm.trans second))
  exact Prod.mk.inj same

/-- Operators and operands behind `left` are taken until one symbol is no operator. -/
inductive Continues (operand : PhraseReader ε σ α) (operator? : σ → Option ω) (combine : ω → α → α → α) :
    α → List σ → α → List σ → Prop where
  | stop {left : α} {rest : List σ} (ends : ∀ symbol ∈ rest.head?, operator? symbol = none) :
      Continues operand operator? combine left rest left rest
  | step {left right read : α} {op : ω} {symbol : σ} {symbols after rest : List σ}
      (found : operator? symbol = some op) (reads : Reads operand symbols right after)
      (more : Continues operand operator? combine (combine op left right) after read rest) :
      Continues operand operator? combine left (symbol :: symbols) read rest

variable {operand : PhraseReader ε σ α} {operator? : σ → Option ω} {combine : ω → α → α → α}

theorem Continues.length_le {left read : α} {symbols rest : List σ}
    (continues : Continues operand operator? combine left symbols read rest) :
    rest.length ≤ symbols.length := by
  induction continues with
  | stop _ => exact Nat.le_refl _
  | step found reads more ih =>
    have shorter := reads.shorter
    rw [List.length_cons]
    omega

theorem Continues.nil {left read : α} {rest : List σ}
    (continues : Continues operand operator? combine left [] read rest) : left = read ∧ rest = [] := by
  cases continues with
  | stop => exact ⟨rfl, rfl⟩

private theorem continues_of_chainFrom {left read : α} {symbols rest : List σ} {bound}
    (taken : chainFrom operand operator? combine left symbols = .ok ⟨(read, rest), bound⟩) :
    Continues operand operator? combine left symbols read rest := by
  fun_induction chainFrom operand operator? combine left symbols with
  | case1 left =>
    obtain ⟨rfl, rfl⟩ := Prod.mk.inj (congrArg Subtype.val (Except.ok.inj taken))
    exact .stop (by simp)
  | case2 left symbol symbols none =>
    obtain ⟨rfl, rfl⟩ := Prod.mk.inj (congrArg Subtype.val (Except.ok.inj taken))
    exact .stop (by simpa using none)
  | case3 left symbol symbols op found fault refused => cases taken
  | case4 left symbol symbols op found right after shorter reads fault refused ih => cases taken
  | case5 left symbol symbols op found right after shorter reads last bounded later ih =>
    obtain rfl := congrArg Subtype.val (Except.ok.inj taken)
    exact .step found ⟨shorter, reads⟩ (ih later)

private theorem chainFrom_of_continues {left read : α} {symbols rest : List σ}
    (continues : Continues operand operator? combine left symbols read rest) :
    ∃ bound, chainFrom operand operator? combine left symbols = .ok ⟨(read, rest), bound⟩ := by
  induction continues with
  | @stop left rest ends =>
    cases rest with
    | nil => exact ⟨Nat.le_refl _, by rw [chainFrom]⟩
    | cons symbol rest => exact ⟨Nat.le_refl _, by rw [chainFrom, ends symbol rfl]⟩
  | step found reads more ih =>
    obtain ⟨shorter, reads⟩ := reads
    obtain ⟨bound, ih⟩ := ih
    have below := Nat.le_succ_of_le (Nat.le_trans bound (Nat.le_of_lt shorter))
    exact ⟨below, by rw [chainFrom]; simp only [found, reads, ih]⟩

/-- A chain is an operand and what continues it. -/
theorem reads_chain_iff {symbols rest : List σ} {read : α} :
    Reads (chain operand operator? combine) symbols read rest ↔
      ∃ left after, Reads operand symbols left after ∧
        Continues operand operator? combine left after read rest := by
  constructor
  · rintro ⟨bound, taken⟩
    unfold chain at taken
    split at taken
    · cases taken
    · rename_i left after shorter first
      split at taken
      · cases taken
      · rename_i last bounded later
        obtain rfl := congrArg Subtype.val (Except.ok.inj taken)
        exact ⟨left, after, ⟨shorter, first⟩, continues_of_chainFrom later⟩
  · rintro ⟨left, after, ⟨shorter, first⟩, continues⟩
    obtain ⟨bound, later⟩ := chainFrom_of_continues continues
    refine ⟨Nat.lt_of_le_of_lt bound shorter, ?_⟩
    unfold chain
    simp only [first, later]

/-- What the operands take, the chain takes: symbols of a shape that operators join. -/
theorem Continues.consumes {shape : List σ → Prop}
    (operands : ∀ {symbols read rest}, Reads operand symbols read rest →
      ∃ used, symbols = used ++ rest ∧ shape used)
    (joins : ∀ {before symbol op after}, shape before → operator? symbol = some op → shape after →
      shape (before ++ symbol :: after))
    {left read : α} {symbols rest : List σ}
    (continues : Continues operand operator? combine left symbols read rest)
    {before : List σ} (start : shape before) :
    ∃ used, before ++ symbols = used ++ rest ∧ shape used := by
  induction continues generalizing before with
  | stop _ => exact ⟨before, rfl, start⟩
  | @step left right read op symbol symbols after rest found reads more ih =>
    obtain ⟨used, rfl, shaped⟩ := operands reads
    obtain ⟨all, eq, whole⟩ := ih (joins start found shaped)
    exact ⟨all, by simpa using eq, whole⟩

theorem Reads.chain_consumes {shape : List σ → Prop}
    (operands : ∀ {symbols read rest}, Reads operand symbols read rest →
      ∃ used, symbols = used ++ rest ∧ shape used)
    (joins : ∀ {before symbol op after}, shape before → operator? symbol = some op → shape after →
      shape (before ++ symbol :: after))
    {symbols rest : List σ} {read : α} (reads : Reads (chain operand operator? combine) symbols read rest) :
    ∃ used, symbols = used ++ rest ∧ shape used := by
  obtain ⟨left, after, first, continues⟩ := reads_chain_iff.mp reads
  obtain ⟨before, rfl, start⟩ := operands first
  exact continues.consumes operands joins start

/-- Another start of the same meaning continues to the same meaning. -/
theorem Continues.replace {alike : α → α → Prop}
    (combines : ∀ op {left other : α} (right : α), alike left other →
      alike (combine op left right) (combine op other right))
    {left read other : α} {symbols rest : List σ}
    (continues : Continues operand operator? combine left symbols read rest) (same : alike left other) :
    ∃ own, Continues operand operator? combine other symbols own rest ∧ alike read own := by
  induction continues generalizing other with
  | stop ends => exact ⟨other, .stop ends, same⟩
  | @step left right read op symbol symbols after rest found reads more ih =>
    obtain ⟨own, continues, equal⟩ := ih (combines op right same)
    exact ⟨own, .step found reads continues, equal⟩

theorem Reads.chain_replace {alike : α → α → Prop}
    (combines : ∀ op {left other : α} (right : α), alike left other →
      alike (combine op left right) (combine op other right))
    {symbols others : List σ} {rest : List σ}
    (operands : ∀ {read rest}, Reads operand symbols read rest →
      ∃ own, Reads operand others own rest ∧ alike read own)
    {read : α} (reads : Reads (chain operand operator? combine) symbols read rest) :
    ∃ own, Reads (chain operand operator? combine) others own rest ∧ alike read own := by
  obtain ⟨left, after, first, continues⟩ := reads_chain_iff.mp reads
  obtain ⟨other, started, same⟩ := operands first
  obtain ⟨own, continued, equal⟩ := continues.replace combines same
  exact ⟨own, reads_chain_iff.mpr ⟨other, after, started, continued⟩, equal⟩

/-- A chain takes as much as before when its operands do, on symbols as few as those. -/
theorem Continues.mono {other : PhraseReader ε σ α} {size : Nat}
    (operands : ∀ {symbols read rest}, symbols.length ≤ size → Reads operand symbols read rest →
      Reads other symbols read rest)
    {left read : α} {symbols rest : List σ} (small : symbols.length ≤ size)
    (continues : Continues operand operator? combine left symbols read rest) :
    Continues other operator? combine left symbols read rest := by
  induction continues with
  | stop ends => exact .stop ends
  | step found reads more ih =>
    have shorter := reads.shorter
    rw [List.length_cons] at small
    exact .step found (operands (by omega) reads) (ih (by omega))

theorem Reads.chain_mono {other : PhraseReader ε σ α} {size : Nat}
    (operands : ∀ {symbols read rest}, symbols.length ≤ size → Reads operand symbols read rest →
      Reads other symbols read rest)
    {symbols rest : List σ} {read : α} (small : symbols.length ≤ size)
    (reads : Reads (chain operand operator? combine) symbols read rest) :
    Reads (chain other operator? combine) symbols read rest := by
  obtain ⟨left, after, first, continues⟩ := reads_chain_iff.mp reads
  have shorter := first.shorter
  exact reads_chain_iff.mpr ⟨left, after, operands small first, continues.mono operands (by omega)⟩

/-- What a chain leaves is the end of what it was given, when this holds of its operands. -/
theorem Reads.chain_suffix
    (suffixes : ∀ {symbols read rest}, Reads operand symbols read rest → rest <:+ symbols)
    {symbols rest : List σ} {read : α} (reads : Reads (chain operand operator? combine) symbols read rest) :
    rest <:+ symbols := by
  have consumed : ∃ used, symbols = used ++ rest ∧ True :=
    Reads.chain_consumes (fun first => let ⟨used, eq⟩ := suffixes first; ⟨used, eq.symm, trivial⟩)
      (fun _ _ _ => trivial) reads
  obtain ⟨used, eq, _⟩ := consumed
  exact ⟨used, eq.symm⟩

/-- Reads one operand, as a list. -/
def single (operand : PhraseReader ε σ α) : PhraseReader ε σ (List α) := fun symbols =>
  match operand symbols with
  | .error fault => .error fault
  | .ok ⟨(read, rest), shorter⟩ => .ok ⟨([read], rest), shorter⟩

theorem reads_single_iff {symbols rest : List σ} {many : List α} :
    Reads (single operand) symbols many rest ↔ ∃ read, many = [read] ∧ Reads operand symbols read rest := by
  constructor
  · rintro ⟨shorter, taken⟩
    unfold single at taken
    split at taken
    · cases taken
    · rename_i read after behind first
      obtain ⟨rfl, rfl⟩ := Prod.mk.inj (congrArg Subtype.val (Except.ok.inj taken))
      exact ⟨read, rfl, behind, first⟩
  · rintro ⟨read, rfl, shorter, first⟩
    exact ⟨shorter, by simp only [single, first]⟩

section Weight

variable {weight : α → Nat} {room : Nat}

/-- What the reader reads weighs no more than the symbols that it takes and the room together. -/
def Weighs (weight : α → Nat) (room : Nat) (reader : PhraseReader ε σ α) : Prop :=
  ∀ ⦃symbols read rest⦄, Reads reader symbols read rest → weight read + rest.length ≤ symbols.length + room

/-- An operator and its right operand are two symbols or more, and two is what a pair weighs beyond the heavier
operand. The room is paid once, by whichever operand is the heavier. -/
theorem Continues.weighs (operands : Weighs weight room operand)
    (combines : ∀ op left right, weight (combine op left right) ≤ max (weight left) (weight right) + 2)
    {left read : α} {symbols rest : List σ} (continues : Continues operand operator? combine left symbols read rest)
    {total : Nat} (fewer : symbols.length < total) (start : weight left + symbols.length ≤ total + room) :
    weight read + rest.length ≤ total + room := by
  induction continues with
  | stop _ => exact start
  | @step left right read op symbol symbols after rest found reads more ih =>
    have shorter := reads.shorter
    have heavier := operands reads
    have pair := combines op left right
    rw [List.length_cons] at fewer start
    exact ih (by omega) (by omega)

theorem Weighs.chain (operands : Weighs weight room operand)
    (combines : ∀ op left right, weight (combine op left right) ≤ max (weight left) (weight right) + 2) :
    Weighs weight room (chain operand operator? combine) := by
  intro symbols read rest reads
  obtain ⟨left, after, first, continues⟩ := reads_chain_iff.mp reads
  exact continues.weighs operands combines first.shorter (operands first)

end Weight

section Follow

variable {ε' τ ω' β : Type} {follower : PhraseReader ε' τ β} {ownOperator? : τ → Option ω'}
  {ownCombine : ω' → β → β → β} {good : σ → Prop} {embed : σ → τ} {image : α → β} {more : List τ}

/-- The second reader takes the images of what the first one takes, also in front of more symbols, from which
the phrase is then parted by a symbol of its own. -/
def Follows (reader : PhraseReader ε σ α) (follower : PhraseReader ε' τ β) (good : σ → Prop)
    (embed : σ → τ) (image : α → β) (more : List τ) : Prop :=
  ∀ {symbols read rest}, (∀ symbol ∈ symbols, good symbol) → Reads reader symbols read rest →
    (rest = [] → more = []) →
      Reads follower (symbols.map embed ++ more) (image read) (rest.map embed ++ more)

/-- Operators correspond. -/
structure OperatorsFollow (operator? : σ → Option ω) (combine : ω → α → α → α)
    (ownOperator? : τ → Option ω') (ownCombine : ω' → β → β → β) (good : σ → Prop) (embed : σ → τ)
    (image : α → β) : Prop where
  found : ∀ {symbol op}, good symbol → operator? symbol = some op →
    ∃ own, ownOperator? (embed symbol) = some own ∧
      ∀ left right, image (combine op left right) = ownCombine own (image left) (image right)
  other : ∀ {symbol}, good symbol → operator? symbol = none → ownOperator? (embed symbol) = none

theorem Continues.follow (operands : Follows operand follower good embed image more)
    (suffixes : ∀ {symbols read rest}, Reads operand symbols read rest → rest <:+ symbols)
    (operators : OperatorsFollow operator? combine ownOperator? ownCombine good embed image)
    {left read : α} {symbols rest : List σ} (sound : ∀ symbol ∈ symbols, good symbol)
    (continues : Continues operand operator? combine left symbols read rest)
    (last : rest = [] → more = []) :
    Continues follower ownOperator? ownCombine (image left) (symbols.map embed ++ more) (image read)
      (rest.map embed ++ more) := by
  induction continues with
  | @stop left rest ends =>
    cases rest with
    | nil =>
      rw [last rfl]
      exact .stop (by simp)
    | cons symbol rest =>
      refine .stop fun own here => ?_
      obtain rfl := Option.some.inj here
      exact operators.other (sound symbol List.mem_cons_self) (ends symbol rfl)
  | @step left right read op symbol symbols after rest found reads continued ih =>
    obtain ⟨own, foundOwn, same⟩ := operators.found (sound symbol List.mem_cons_self) found
    have within := (suffixes reads).subset
    have inner : after = [] → more = [] := by
      rintro rfl
      exact last (List.eq_nil_of_length_eq_zero (Nat.le_zero.mp continued.length_le))
    have tail := ih (fun own member => sound own (List.mem_cons_of_mem _ (within member))) last
    rw [same] at tail
    exact .step foundOwn
      (operands (fun own member => sound own (List.mem_cons_of_mem _ member)) reads inner) tail

theorem Follows.chain (operands : Follows operand follower good embed image more)
    (suffixes : ∀ {symbols read rest}, Reads operand symbols read rest → rest <:+ symbols)
    (operators : OperatorsFollow operator? combine ownOperator? ownCombine good embed image) :
    Follows (chain operand operator? combine) (PhraseReader.chain follower ownOperator? ownCombine) good
      embed image more := by
  intro symbols read rest sound reads last
  obtain ⟨left, after, first, continues⟩ := reads_chain_iff.mp reads
  have inner : after = [] → more = [] := by
    rintro rfl
    exact last (List.eq_nil_of_length_eq_zero (Nat.le_zero.mp continues.length_le))
  have within := (suffixes first).subset
  exact reads_chain_iff.mpr ⟨_, _, operands sound first inner,
    continues.follow operands suffixes operators (fun own member => sound own (within member)) last⟩

theorem Follows.single (operands : Follows operand follower good embed image more) :
    Follows (single operand) (PhraseReader.single follower) good embed (List.map image) more := by
  intro symbols many rest sound reads last
  obtain ⟨read, rfl, first⟩ := reads_single_iff.mp reads
  exact reads_single_iff.mpr ⟨image read, rfl, operands sound first last⟩

end Follow

end PhraseReader

end HeroSheet
