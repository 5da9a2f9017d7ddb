import HeroSheet.Proofs.Roll.Chosen
import HeroSheet.Proofs.Roll.Stepwise

/-!
Rolls that fail. What can fail is the choice of an effect, the settings and an integer that is too long to be written,
and a roll comes to all of them before it writes the session for the first time: a roll that fails has written nothing.
-/

namespace HeroSheet

namespace Steps

variable {α β : Type} {first : Steps α} {next : α → Steps β}

/-- The steps do not write the session. -/
def Keeps (steps : Steps α) : Prop := ∀ s, (steps.runFrom s).2 = s

/-- The steps cannot fail. -/
def Sure (steps : Steps α) : Prop := ∀ s, ∃ a, (steps.runFrom s).1 = .ok a

/-- Steps that fail leave the session as it was before them. -/
def Atomic (steps : Steps α) : Prop := ∀ s fault, (steps.runFrom s).1 = .error fault → (steps.runFrom s).2 = s

theorem Sure.atomic (sure : Sure first) : Atomic first := by
  intro s fault failed
  obtain ⟨a, done⟩ := sure s
  rw [done] at failed
  cases failed

theorem Sure.bind (sure : Sure first) (others : ∀ a, Sure (next a)) : Sure (first >>= next) := by
  intro s
  obtain ⟨a, done⟩ := sure s
  have all : (first >>= next).runFrom s = (next a).runFrom (first.runFrom s).2 := by
    rw [runFrom_bind]
    generalize first.runFrom s = outcome at done
    obtain ⟨value, t⟩ := outcome
    obtain rfl : value = .ok a := done
    rfl
  rw [all]
  exact others a (first.runFrom s).2

/-- Steps that may fail stay atomic behind others that write nothing. -/
theorem Keeps.bind_atomic (keeps : Keeps first) (others : ∀ a, Atomic (next a)) : Atomic (first >>= next) := by
  intro s fault
  have kept := keeps s
  rw [runFrom_bind]
  generalize first.runFrom s = outcome at kept ⊢
  obtain ⟨value, t⟩ := outcome
  obtain rfl : t = s := kept
  cases value with
  | error own => exact fun _ => rfl
  | ok a => exact others a t fault

/-- Nothing that fails may follow steps that have written. -/
theorem Atomic.bind_sure (atomic : Atomic first) (others : ∀ a, Sure (next a)) : Atomic (first >>= next) := by
  intro s fault
  have kept := atomic s
  rw [runFrom_bind]
  generalize first.runFrom s = outcome at kept ⊢
  obtain ⟨value, t⟩ := outcome
  cases value with
  | error own => exact fun _ => kept own rfl
  | ok a =>
    intro failed
    obtain ⟨b, done⟩ := others a t
    change ((next a).runFrom t).1 = .error fault at failed
    rw [done] at failed
    cases failed

theorem keeps_ofExcept (outcome : Except RollFault α) : Keeps (MonadExcept.ofExcept outcome) := fun _ =>
  congrArg Prod.snd (runFrom_ofExcept outcome)

theorem sure_pure (a : α) : Sure (pure a) := fun _ => ⟨a, rfl⟩

private theorem sure_modify (write : Session → Session) : Sure (modify write) := fun _ => ⟨⟨⟩, rfl⟩

end Steps

namespace Session

variable {s : Session} {name : String}

/-- No active effect of the name is one that the player may spend. -/
def Misses (s : Session) (name : String) : Prop := ∀ e ∈ s.activeEffects, e.name = name → e.autoApply = true

instance (s : Session) (name : String) : Decidable (s.Misses name) :=
  inferInstanceAs (Decidable (∀ e ∈ s.activeEffects, e.name = name → e.autoApply = true))

private theorem misses_iff : s.Misses name ↔ ∀ e, s.optionalEffect name ≠ .ok e := by
  constructor
  · intro misses e found
    obtain ⟨active, named, optional⟩ := choosable_of_optionalEffect found
    rw [misses e active named] at optional
    cases optional
  · rintro absent e active rfl
    by_contra optional
    obtain ⟨own, found⟩ := exists_optionalEffect active (Bool.eq_false_iff.mpr optional)
    exact absent own found

private theorem optionalEffect_eq_error_iff {fault : UnknownEffect} :
    s.optionalEffect name = .error fault ↔
      s.Misses name ∧ fault = ⟨quotedString name ++ " is not an active optional effect", name⟩ := by
  rw [misses_iff]
  unfold optionalEffect
  cases s.activeEffects.find? fun e => e.name == name && !e.autoApply with
  | none => simp [eq_comm]
  | some e => simp

theorem chosenEffect_eq_error_iff {choice : Option String} {fault : UnknownEffect} :
    s.chosenEffect choice = .error fault ↔
      ∃ name, choice = some name ∧ s.Misses name ∧
        fault = ⟨quotedString name ++ " is not an active optional effect", name⟩ := by
  cases choice with
  | none =>
    refine iff_of_false (nomatch ·) ?_
    rintro ⟨_, absent, _⟩
    cases absent
  | some name =>
    have failed : s.chosenEffect (some name) = .error fault ↔ s.optionalEffect name = .error fault :=
      map_eq_error_iff
    rw [failed, optionalEffect_eq_error_iff]
    constructor
    · intro missed
      exact ⟨name, rfl, missed⟩
    · rintro ⟨_, ⟨⟩, missed⟩
      exact missed

end Session

namespace RollCall

open Steps

variable {call : RollCall} {s : Session}

/-- Neither the formula nor what effects add to it asks for an integer that is too long to be written. -/
def Writes (call : RollCall) (s : Session) : Prop :=
  call.character.writes call.formula.toList = true ∧
    ∀ chosen, s.chosenEffect call.chosen = .ok chosen →
      (s.foldedModifiers call.label chosen).all Modifier.isWritable = true

/-- The call chooses what is no active effect that the player may spend. -/
def Mischooses (call : RollCall) (s : Session) : Prop := ∃ name, call.chosen = some name ∧ s.Misses name

/-- The reason for a fault: the choice, that there are no settings, or an integer that is too long. -/
def FailsBy (call : RollCall) (s : Session) (fault : RollFault) : Prop :=
  (∃ name, call.chosen = some name ∧ s.Misses name ∧
    fault = .unknownEffect ⟨quotedString name ++ " is not an active optional effect", name⟩) ∨
  (∃ own, call.config = .error own ∧ fault = .configuration own) ∨
  (¬ call.Writes s ∧ fault = .tooLong)

/-- The roll fails exactly when the call chooses what the player may not spend. -/
def FailsByChoice (call : RollCall) (s : Session) : Prop :=
  (∃ fault, (call.steps.runFrom s).1 = .error fault) ↔ call.Mischooses s

private theorem keeps_findChosen (call : RollCall) : Keeps call.findChosen := fun s =>
  congrArg Prod.snd (call.runFrom_findChosen s)

private theorem keeps_foldActive (call : RollCall) (resolved : String) : Keeps (call.foldActive resolved) := fun s =>
  congrArg Prod.snd (call.runFrom_foldActive s resolved)

private theorem atomic_spendChosen (call : RollCall) (request : RollRequest) (chosen : Option Effect) :
    Atomic (call.spendChosen request chosen) := by
  cases chosen with
  | none => exact (sure_pure request).atomic
  | some e =>
    refine (keeps_ofExcept _).bind_atomic fun folded => ?_
    exact ((sure_modify _).bind fun _ => sure_pure folded).atomic

private theorem sure_applyAdvantage (request : RollRequest) : Sure (applyAdvantage request) := fun s =>
  ⟨_, congrArg Prod.fst (runFrom_applyAdvantage s request)⟩

/-- The steps that can fail come before the first that writes. -/
theorem atomic_steps (call : RollCall) : Atomic call.steps := by
  refine call.keeps_findChosen.bind_atomic fun chosen => (keeps_ofExcept _).bind_atomic fun resolved => ?_
  refine (call.keeps_foldActive resolved).bind_atomic fun request => ?_
  exact (call.atomic_spendChosen request chosen).bind_sure sure_applyAdvantage

theorem writtenContribution_eq_error_iff {label : String} {chosen : Option Effect} {fault : RollFault} :
    s.writtenContribution label chosen = .error fault ↔
      (s.foldedModifiers label chosen).all Modifier.isWritable = false ∧ fault = .tooLong := by
  unfold Session.writtenContribution
  cases (s.foldedModifiers label chosen).all Modifier.isWritable <;> simp [eq_comm]

theorem answer_eq_error_iff {fault : RollFault} :
    call.answer s = .error fault ↔
      (s.chosenEffect call.chosen).mapError .unknownEffect = .error fault ∨
      ∃ chosen, s.chosenEffect call.chosen = .ok chosen ∧
        (call.resolved = .error fault ∨
          (∃ resolved, call.resolved = .ok resolved) ∧ s.writtenContribution call.label chosen = .error fault) := by
  unfold answer
  rw [map_eq_error_iff, call.prepare_eq, map_eq_error_iff, beforeAdvantage, ← resolved, bind_eq_error_iff]
  simp only [bind_eq_error_iff, mapError_eq_ok_iff, reduceCtorEq, and_false, exists_false, or_false,
    exists_and_right]

theorem failsBy_of_answer {fault : RollFault} (failed : call.answer s = .error fault) : call.FailsBy s fault := by
  rcases answer_eq_error_iff.mp failed with unchosen | ⟨chosen, found, unresolved | ⟨_, unwritten⟩⟩
  · obtain ⟨own, absent, rfl⟩ := mapError_eq_error_iff.mp unchosen
    obtain ⟨name, chosen, misses, rfl⟩ := Session.chosenEffect_eq_error_iff.mp absent
    exact Or.inl ⟨name, chosen, misses, rfl⟩
  · rcases cases_of_resolved unresolved with ⟨overlong, same⟩ | invalid
    · refine Or.inr (Or.inr ⟨fun writes => ?_, same⟩)
      exact Bool.eq_false_iff.mp overlong writes.1
    · exact Or.inr (Or.inl invalid)
  · obtain ⟨overlong, same⟩ := writtenContribution_eq_error_iff.mp unwritten
    refine Or.inr (Or.inr ⟨fun writes => ?_, same⟩)
    exact Bool.eq_false_iff.mp overlong (writes.2 chosen found)

private theorem answer_fails_iff {settings : Settings} (valid : call.config = .ok settings) :
    (∃ fault, call.answer s = .error fault) ↔ call.Mischooses s ∨ ¬ call.Writes s := by
  constructor
  · rintro ⟨fault, failed⟩
    rcases failsBy_of_answer failed with ⟨name, chosen, misses, _⟩ | ⟨own, invalid, _⟩ | ⟨overlong, _⟩
    · exact Or.inl ⟨name, chosen, misses⟩
    · rw [valid] at invalid
      cases invalid
    · exact Or.inr overlong
  · rintro (⟨name, chosen, misses⟩ | overlong)
    · have failed := Session.chosenEffect_eq_error_iff.mpr ⟨name, chosen, misses, rfl⟩
      exact ⟨_, answer_eq_error_iff.mpr (Or.inl (mapError_eq_error_iff.mpr ⟨_, failed, rfl⟩))⟩
    · cases found : s.chosenEffect call.chosen with
      | error own => exact ⟨_, answer_eq_error_iff.mpr (Or.inl (mapError_eq_error_iff.mpr ⟨own, found, rfl⟩))⟩
      | ok chosen =>
        refine ⟨.tooLong, answer_eq_error_iff.mpr (Or.inr ⟨chosen, found, ?_⟩)⟩
        by_cases written : call.character.writes call.formula.toList = true
        · refine Or.inr ⟨(exists_resolved_iff valid).mpr written, writtenContribution_eq_error_iff.mpr ⟨?_, rfl⟩⟩
          refine Bool.eq_false_iff.mpr fun all => overlong ⟨written, fun own same => ?_⟩
          obtain rfl := Except.ok.inj (found.symm.trans same)
          exact all
        · exact Or.inl (resolved_of_not_writes (Bool.eq_false_iff.mpr written))

/-- A roll that fails costs nothing. Its steps leave the session as it was, and because of the choice, of the settings
or of an integer that is too long they fail. With settings they fail exactly for the first and the last reason: for the
first alone exactly when the choice is wrong or nothing is too long. -/
theorem fails_without_cost_iff (call : RollCall) (s : Session) :
    call.steps.runFrom s = (call.answer s, call.sessionAfter s) ∧
      (∀ fault, (call.steps.runFrom s).1 = .error fault → (call.steps.runFrom s).2 = s ∧ call.FailsBy s fault) ∧
      ∀ settings, call.config = .ok settings →
        ((∃ fault, (call.steps.runFrom s).1 = .error fault) ↔ call.Mischooses s ∨ ¬ call.Writes s) ∧
          (call.FailsByChoice s ↔ call.Mischooses s ∨ call.Writes s) := by
  have run := call.runFrom_steps s
  have result : (call.steps.runFrom s).1 = call.answer s := congrArg Prod.fst run
  refine ⟨run, fun fault failed => ⟨call.atomic_steps s fault failed, ?_⟩, fun settings valid => ?_⟩
  · exact failsBy_of_answer (result ▸ failed)
  · have fails := answer_fails_iff (s := s) valid
    rw [← result] at fails
    refine ⟨fails, ?_⟩
    unfold FailsByChoice
    rw [fails]
    tauto

/-- Neither an effect that applies by itself nor missing settings cost one who is guided the guidance, the advantage
or the concentration. -/
theorem fails_without_cost_iff_guided :
    let s : Session :=
      { Session.empty.performAll [.addNamed "Bless", .addNamed "Guidance", .concentrate (some "Bless")] with
        advantage := .advantage }
    let call : RollCall := ⟨.ok .default, .plain, "Stealth Check", "1d20", some "Bless", none⟩
    let unset : RollCall := { call with config := .error .invalidSettings, chosen := some "Guidance" }
    (∃ fault, (call.steps.runFrom s).1 = .error fault) ∧ (call.steps.runFrom s).2 = s ∧
      (unset.steps.runFrom s).1 = .error (.configuration .invalidSettings) ∧ (unset.steps.runFrom s).2 = s ∧
      ((call.choosing (some "Guidance")).steps.runFrom s).2 =
        { Session.empty.performAll [.addNamed "Bless", .concentrate (some "Bless")] with advantage := .normal } := by
  intro s call unset
  obtain ⟨_, kept, fails⟩ := call.fails_without_cost_iff s
  obtain ⟨fault, failed⟩ := (fails .default rfl).1.mpr (Or.inl ⟨"Bless", rfl, by decide +kernel⟩)
  have unresolved : (unset.steps.runFrom s).1 = .error (.configuration .invalidSettings) := by decide +kernel
  exact ⟨⟨fault, failed⟩, (kept fault failed).1, unresolved, ((unset.fails_without_cost_iff s).2.1 _ unresolved).1,
    by decide +kernel⟩

/-- The cleric's roll fails with settings and without a choice. -/
theorem not_failsByChoice_devout :
    devout.Valid ∧ devoutCall.config = .ok .default ∧ devoutCall.chosen = none ∧
      (devoutCall.steps.runFrom Session.empty).1 = .error .tooLong ∧ ¬ devoutCall.FailsByChoice Session.empty := by
  have chosen : devoutCall.chosen = none := rfl
  have unresolved : devoutCall.resolved = .error .tooLong := resolved_of_not_writes not_writes_devout
  have unchosen : Session.empty.chosenEffect devoutCall.chosen = .ok none := rfl
  have answered : devoutCall.answer Session.empty = .error .tooLong :=
    answer_eq_error_iff.mpr (Or.inr ⟨none, unchosen, Or.inl unresolved⟩)
  have failed : (devoutCall.steps.runFrom Session.empty).1 = .error .tooLong := by
    rw [runFrom_steps, answered]
  refine ⟨valid_devout, rfl, chosen, failed, fun claimed => ?_⟩
  obtain ⟨name, own, _⟩ := claimed.mp ⟨_, failed⟩
  rw [chosen] at own
  cases own

end RollCall

end HeroSheet
