import HeroSheet.Proofs.Phrase

/-!
What chains are read from. A reader that takes exactly the symbols of a shape makes a chain that takes exactly
such shapes with operators between, and the chain stops where neither an operand goes on nor an operator stands.
-/

namespace HeroSheet

namespace PhraseReader

variable {ε σ ω α : Type}

/-- Operands with an operator between each two, grouped to the left. -/
inductive Chained (operand : List σ → α → Prop) (operator? : σ → Option ω) (combine : ω → α → α → α) :
    List σ → α → Prop where
  | one {symbols : List σ} {read : α} (shaped : operand symbols read) :
      Chained operand operator? combine symbols read
  | more {before after : List σ} {left right : α} {symbol : σ} {op : ω}
      (start : Chained operand operator? combine before left) (found : operator? symbol = some op)
      (shaped : operand after right) :
      Chained operand operator? combine (before ++ symbol :: after) (combine op left right)

/-- From good symbols the reader takes just those that are of the shape, where the symbol behind them is one that
it stops at. -/
def Recognises (good : σ → Prop) (reader : PhraseReader ε σ α) (shape : List σ → α → Prop)
    (stops : σ → Prop) : Prop :=
  ∀ ⦃symbols read rest⦄, (∀ symbol ∈ symbols, good symbol) →
    (Reads reader symbols read rest ↔
      ∃ used, symbols = used ++ rest ∧ shape used read ∧ ∀ symbol ∈ rest.head?, stops symbol)

/-- From good symbols the reader comes to no other faults than those of a kind. -/
def FaultsAre (good : σ → Prop) (reader : PhraseReader ε σ α) (kind : ε → Prop) : Prop :=
  ∀ ⦃symbols fault⦄, (∀ symbol ∈ symbols, good symbol) → reader symbols = .error fault → kind fault

variable {operand : PhraseReader ε σ α} {operator? : σ → Option ω} {combine : ω → α → α → α}
  {good stops : σ → Prop} {shape other : List σ → α → Prop} {kind : ε → Prop}

theorem Chained.mono (operands : ∀ {symbols read}, shape symbols read → other symbols read) {symbols : List σ}
    {read : α} (chained : Chained shape operator? combine symbols read) :
    Chained other operator? combine symbols read := by
  induction chained with
  | one shaped => exact .one (operands shaped)
  | more start found shaped ih => exact .more ih found (operands shaped)

/-- What holds of all operands, and of what is combined when it holds of both parts, holds of the chain. -/
theorem Chained.forall_of_operands {p : α → Prop} (operands : ∀ {symbols read}, shape symbols read → p read)
    (combines : ∀ {op left right}, p left → p right → p (combine op left right)) {symbols : List σ} {read : α}
    (chained : Chained shape operator? combine symbols read) : p read := by
  induction chained with
  | one shaped => exact operands shaped
  | more start found shaped ih => exact combines ih (operands shaped)

/-- What is left behind a phrase is as good as the symbols it is read from. -/
theorem Recognises.sound {reader : PhraseReader ε σ α} (recognises : Recognises good reader shape stops)
    {symbols rest : List σ} {read : α} (sound : ∀ symbol ∈ symbols, good symbol)
    (reads : Reads reader symbols read rest) : ∀ symbol ∈ rest, good symbol := by
  obtain ⟨used, rfl, _⟩ := (recognises sound).mp reads
  exact (List.forall_mem_append.mp sound).2

/-- From better symbols the reader takes the same. -/
theorem Recognises.weaken {better : σ → Prop} {reader : PhraseReader ε σ α}
    (recognises : Recognises good reader shape stops) (good_of : ∀ {symbol}, better symbol → good symbol) :
    Recognises better reader shape stops :=
  fun _ _ _ sound => recognises fun symbol member => good_of (sound symbol member)

theorem Continues.sound (recognises : Recognises good operand shape stops) {left read : α} {symbols rest : List σ}
    (continues : Continues operand operator? combine left symbols read rest)
    (sound : ∀ symbol ∈ symbols, good symbol) : ∀ symbol ∈ rest, good symbol := by
  induction continues with
  | stop ends => exact sound
  | step found reads more ih => exact ih (recognises.sound (List.forall_mem_cons.mp sound).2 reads)

/-- What continues a chain makes a longer chain. -/
theorem Continues.chained (operands : Recognises good operand shape stops) {left read : α} {symbols rest : List σ}
    (continues : Continues operand operator? combine left symbols read rest)
    (sound : ∀ symbol ∈ symbols, good symbol) {before : List σ}
    (start : Chained shape operator? combine before left) (stopped : ∀ symbol ∈ symbols.head?, stops symbol) :
    ∃ used, before ++ symbols = used ++ rest ∧ Chained shape operator? combine used read ∧
      ∀ symbol ∈ rest.head?, stops symbol ∧ operator? symbol = none := by
  induction continues generalizing before with
  | stop ends => exact ⟨before, rfl, start, fun symbol here => ⟨stopped symbol here, ends symbol here⟩⟩
  | @step left right read op symbol symbols after rest found reads more ih =>
    have behind := (List.forall_mem_cons.mp sound).2
    have last := operands.sound behind reads
    obtain ⟨middle, rfl, shaped, ended⟩ := (operands behind).mp reads
    obtain ⟨used, eq, chained, stopped⟩ := ih last (start.more found shaped) ended
    refine ⟨used, ?_, chained, stopped⟩
    rw [← eq, List.append_assoc, List.cons_append]

/-- The symbols of a chain are read, and then those that continue it. -/
theorem Chained.reads (operands : Recognises good operand shape stops)
    (operators : ∀ {symbol op}, good symbol → operator? symbol = some op → stops symbol) {before : List σ} {left : α}
    (chained : Chained shape operator? combine before left) {symbols rest : List σ} {read : α}
    (sound : ∀ symbol ∈ before ++ symbols, good symbol) (stopped : ∀ symbol ∈ symbols.head?, stops symbol)
    (continues : Continues operand operator? combine left symbols read rest) :
    Reads (chain operand operator? combine) (before ++ symbols) read rest := by
  induction chained generalizing symbols with
  | one shaped => exact reads_chain_iff.mpr ⟨_, symbols, (operands sound).mpr ⟨_, rfl, shaped, stopped⟩, continues⟩
  | @more before after left right symbol op start found shaped ih =>
    rw [List.append_assoc, List.cons_append] at sound ⊢
    obtain ⟨operator, behind⟩ := List.forall_mem_cons.mp (List.forall_mem_append.mp sound).2
    have reads : Reads operand (after ++ symbols) right symbols := (operands behind).mpr ⟨after, rfl, shaped, stopped⟩
    refine ih sound ?_ (.step found reads continues)
    intro own here
    obtain rfl := Option.some.inj here
    exact operators operator found

/-- A reader of chains recognises chains, if operands stop at every operator. -/
theorem Recognises.chain (operands : Recognises good operand shape stops)
    (operators : ∀ {symbol op}, good symbol → operator? symbol = some op → stops symbol) :
    Recognises good (chain operand operator? combine) (Chained shape operator? combine)
      fun symbol => stops symbol ∧ operator? symbol = none := by
  intro symbols read rest sound
  constructor
  · intro reads
    obtain ⟨left, after, first, continues⟩ := reads_chain_iff.mp reads
    obtain ⟨used, rfl, shaped, stopped⟩ := (operands sound).mp first
    exact continues.chained operands (List.forall_mem_append.mp sound).2 (.one shaped) stopped
  · rintro ⟨used, rfl, chained, last⟩
    exact chained.reads operands operators sound (fun symbol here => (last symbol here).1)
      (.stop fun symbol here => (last symbol here).2)

/-- One operand, as a list. -/
def Alone (shape : List σ → α → Prop) (symbols : List σ) (many : List α) : Prop :=
  ∃ read, many = [read] ∧ shape symbols read

theorem Recognises.single (operands : Recognises good operand shape stops) :
    Recognises good (single operand) (Alone shape) stops := by
  intro symbols many rest sound
  constructor
  · intro reads
    obtain ⟨read, rfl, first⟩ := reads_single_iff.mp reads
    obtain ⟨used, eq, shaped, stopped⟩ := (operands sound).mp first
    exact ⟨used, eq, ⟨read, rfl, shaped⟩, stopped⟩
  · rintro ⟨used, eq, ⟨read, rfl, shaped⟩, stopped⟩
    exact reads_single_iff.mpr ⟨read, rfl, (operands sound).mpr ⟨used, eq, shaped, stopped⟩⟩

theorem Alone.mono (operands : ∀ {symbols read}, shape symbols read → other symbols read) {symbols : List σ}
    {many : List α} (alone : Alone shape symbols many) : Alone other symbols many := by
  obtain ⟨read, rfl, shaped⟩ := alone
  exact ⟨read, rfl, operands shaped⟩

private theorem kind_of_chainFrom (operands : FaultsAre good operand kind)
    (recognises : Recognises good operand shape stops)
    {left : α} {symbols : List σ} {fault : ε} (sound : ∀ symbol ∈ symbols, good symbol)
    (refused : chainFrom operand operator? combine left symbols = .error fault) : kind fault := by
  fun_induction chainFrom operand operator? combine left symbols with
  | case1 left => cases refused
  | case2 left symbol symbols none => cases refused
  | case3 left symbol symbols op found own refusal =>
    obtain rfl := Except.error.inj refused
    exact operands (List.forall_mem_cons.mp sound).2 refusal
  | case4 left symbol symbols op found right after shorter reads own refusal ih =>
    obtain rfl := Except.error.inj refused
    have behind := recognises.sound (List.forall_mem_cons.mp sound).2 ⟨shorter, reads⟩
    exact ih behind refusal
  | case5 left symbol symbols op found right after shorter reads last bounded later ih => cases refused

/-- The faults of a chain are those of its operands. -/
theorem FaultsAre.chain (operands : FaultsAre good operand kind) (recognises : Recognises good operand shape stops) :
    FaultsAre good (chain operand operator? combine) kind := by
  intro symbols fault sound refused
  unfold PhraseReader.chain at refused
  split at refused
  · rename_i own refusal
    obtain rfl := Except.error.inj refused
    exact operands sound refusal
  · rename_i left after shorter reads
    split at refused
    · rename_i own refusal
      obtain rfl := Except.error.inj refused
      exact kind_of_chainFrom operands recognises (recognises.sound sound ⟨shorter, reads⟩) refusal
    · cases refused

end PhraseReader

end HeroSheet
