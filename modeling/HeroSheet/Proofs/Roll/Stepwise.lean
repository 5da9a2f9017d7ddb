import HeroSheet.Proofs.Number.Writable
import HeroSheet.Proofs.Roll.Offered

/-!
A roll step by step. Effects are folded into the request one after the other, and each step may fail and may write the
session. To fold an effect in appends its contribution, and the steps together are the roll.
-/

namespace HeroSheet

/-- The contribution of a modifier of damage, if the roll is one of damage. -/
def Effect.damageContributionIf (e : Effect) (applies : Bool) (modifier : Option Modifier) : Contribution :=
  match applies, modifier with
  | true, some own => e.contributeDamage own
  | _, _ => .none

namespace RollRequest

/-- The request with one more note. -/
def noted (request : RollRequest) (note : String) : RollRequest :=
  { request with annotations := request.annotations ++ [note] }

/-- The request with a modifier as one more term, which is noted. -/
def summed (request : RollRequest) (modifier : Modifier) (note : String) : Except RollFault RollRequest :=
  if modifier.isWritable then
    .ok { request with
      formula := request.formula ++ (" + " ++ modifier.term)
      annotations := request.annotations ++ [note] }
  else .error .tooLong

/-- Folds a modifier of a d20 roll in. -/
def fold (request : RollRequest) (e : Effect) (modifier : Modifier) : Except RollFault RollRequest :=
  if modifier = .text "advantage" then .ok (request.noted (e.note "Advantage"))
  else if modifier = .text "disadvantage" then .ok (request.noted (e.note "Disadvantage"))
  else if modifier = .text "fail" then .ok (request.noted (e.note "Auto-fail"))
  else request.summed modifier (e.note modifier.term)

/-- Folds a modifier in if the roll is one that it applies to. -/
def foldIf (request : RollRequest) (e : Effect) (applies : Bool) (modifier : Option Modifier) :
    Except RollFault RollRequest :=
  match applies, modifier with
  | true, some own => request.fold e own
  | _, _ => .ok request

/-- Folds a modifier of damage in if the roll is one of damage. -/
def foldDamage (request : RollRequest) (e : Effect) (applies : Bool) (modifier : Option Modifier) :
    Except RollFault RollRequest :=
  match applies, modifier with
  | true, some own => request.summed own (e.note ("+" ++ own.term))
  | _, _ => .ok request

/-- Folds an effect in, if it applies by itself: its modifiers for attacks, saves, skills and damage. -/
def foldAuto (label : String) (request : RollRequest) (e : Effect) : Except RollFault RollRequest :=
  if !e.autoApply || e.modifiers.isEmpty then .ok request
  else do
    let categories := RollCategories.ofLabel label
    let attack ← request.foldIf e categories.attack (e.modifier? "attack")
    let save ← attack.foldIf e categories.save (e.saveModifier? (lowered label))
    let skill ← save.foldIf e categories.skill (e.modifier? "skill")
    skill.foldDamage e categories.damage (e.modifier? "damage")

/-- Folds the first of the modifiers in that the chosen effect has for the roll, if there is one. -/
def foldChosen (label : String) (request : RollRequest) (e : Effect) : Except RollFault RollRequest :=
  let categories := RollCategories.ofLabel label
  let own := fun (applies : Bool) (key : String) => if applies then e.modifier? key else none
  let isCheck := categories.skill || abilityKeywords.any (mentions (lowered label))
  match (own isCheck "skill").or ((own categories.attack "attack").or (own categories.save "save")) with
  | some modifier => request.fold e modifier
  | none => .ok request

/-- Folds the active effects in, buffs before conditions. -/
def foldActive (label : String) (request : RollRequest) (s : Session) : Except RollFault RollRequest :=
  s.activeEffects.foldlM (foldAuto label) request

/-- The request with all active effects folded in, and then the chosen one. -/
def foldAll (label : String) (request : RollRequest) (s : Session) (chosen : Option Effect) :
    Except RollFault RollRequest := do
  let folded ← request.foldActive label s
  match chosen with
  | none => .ok folded
  | some e => folded.foldChosen label e

end RollRequest

/-- Steps that may fail, and may write the session. What was written before a step failed stays written. -/
abbrev Steps (α : Type) := ExceptT RollFault (StateM Session) α

/-- What the steps come to from a session on, and the session after them. -/
def Steps.runFrom {α : Type} (steps : Steps α) (s : Session) : Except RollFault α × Session :=
  (ExceptT.run steps).run s

namespace RollCall

variable (call : RollCall)

/-- The formula with the character's values, simplified. -/
def resolved : Except RollFault String := call.character.rollFormula call.config call.formula

/-- The request as it is before effects are folded in. -/
def bare (resolved : String) : RollRequest :=
  ⟨call.label, resolved, call.kind.getD (.ofLabel call.label), [], none⟩

/-- Looks the chosen effect up among those that the player may spend. -/
def findChosen : Steps (Option Effect) := do
  let s ← get
  MonadExcept.ofExcept ((s.chosenEffect call.chosen).mapError .unknownEffect)

def resolve : Steps String := MonadExcept.ofExcept call.resolved

def foldActive (resolved : String) : Steps RollRequest := do
  let s ← get
  MonadExcept.ofExcept ((call.bare resolved).foldActive call.label s)

/-- Folds the chosen effect in and ends it. -/
def spendChosen (request : RollRequest) : Option Effect → Steps RollRequest
  | none => return request
  | some e => do
    let folded ← MonadExcept.ofExcept (request.foldChosen call.label e)
    modify fun s => (s.removeEffect e.name).2
    return folded

/-- Applies the advantage of the session, and spends it if it was applied. -/
def applyAdvantage (request : RollRequest) : Steps RollRequest := modifyGet request.advantaged

/-- The steps of a roll, in their order. -/
def steps : Steps RollRequest := do
  let chosen ← call.findChosen
  let resolved ← call.resolve
  let request ← call.foldActive resolved
  let request ← call.spendChosen request chosen
  applyAdvantage request

end RollCall

namespace Contribution

theorem none_append (a : Contribution) : none ++ a = a := by
  change Contribution.mk ("" ++ a.terms) ([] ++ a.notes) = a
  rw [String.empty_append, List.nil_append]

theorem append_assoc (a b c : Contribution) : a ++ b ++ c = a ++ (b ++ c) :=
  congrArg₂ mk (String.append_assoc ..) (List.append_assoc ..)

theorem foldl_append (a : Contribution) (added : List Contribution) :
    added.foldl (· ++ ·) a = a ++ concat added := by
  induction added generalizing a with
  | nil => exact (append_none a).symm
  | cons b added ih =>
    change added.foldl (· ++ ·) (a ++ b) = a ++ added.foldl (· ++ ·) (none ++ b)
    rw [ih, ih, none_append, append_assoc]

theorem concat_cons (a : Contribution) (added : List Contribution) : concat (a :: added) = a ++ concat added := by
  change added.foldl (· ++ ·) (none ++ a) = _
  rw [foldl_append, none_append]

end Contribution

namespace RollRequest

variable (request : RollRequest) (label : String) (e : Effect)

private theorem adding_none : request.adding .none = request := by
  change { request with formula := request.formula ++ "", annotations := request.annotations ++ [] } = request
  rw [String.append_empty, List.append_nil]

private theorem adding_adding (a b : Contribution) : (request.adding a).adding b = request.adding (a ++ b) := by
  have terms : request.formula ++ a.terms ++ b.terms = request.formula ++ (a.terms ++ b.terms) :=
    String.append_assoc ..
  have notes : request.annotations ++ a.notes ++ b.notes = request.annotations ++ (a.notes ++ b.notes) :=
    List.append_assoc ..
  exact congrArg₂ (fun formula annotations => { request with formula := formula, annotations := annotations })
    terms notes

private theorem noted_eq (note : String) : request.noted note = request.adding ⟨"", [note]⟩ := by
  change _ = { request with formula := request.formula ++ "", annotations := request.annotations ++ [note] }
  rw [String.append_empty]
  rfl

/-- The folding adds a contribution if modifiers may all be written, and else fails. -/
def FoldsIn (folding : RollRequest → Except RollFault RollRequest) (modifiers : List Modifier)
    (added : Contribution) : Prop :=
  ∀ request, folding request =
    if modifiers.all Modifier.isWritable then .ok (request.adding added) else .error .tooLong

section FoldsIn

variable {folding other : RollRequest → Except RollFault RollRequest} {modifiers others : List Modifier}
  {a b : Contribution} {label : String} {e : Effect}

theorem foldsIn_nothing : FoldsIn .ok [] .none := fun request => congrArg Except.ok request.adding_none.symm

theorem foldsIn_noted {note : String} {modifier : Modifier} (writable : modifier.isWritable = true) :
    FoldsIn (fun request => .ok (request.noted note)) [modifier] ⟨"", [note]⟩ := by
  intro request
  rw [List.all_cons, List.all_nil, writable]
  exact congrArg Except.ok (request.noted_eq note)

theorem FoldsIn.bind (first : FoldsIn folding modifiers a) (second : FoldsIn other others b) :
    FoldsIn (fun request => folding request >>= other) (modifiers ++ others) (a ++ b) := by
  intro request
  dsimp only
  rw [first request, List.all_append]
  cases modifiers.all Modifier.isWritable with
  | false => rfl
  | true =>
    change other (request.adding a) = _
    rw [second, adding_adding]
    rfl

theorem foldsIn_summed (modifier : Modifier) (note : String) :
    FoldsIn (·.summed modifier note) [modifier] ⟨" + " ++ modifier.term, [note]⟩ := by
  intro request
  unfold summed
  rw [List.all_cons, List.all_nil, Bool.and_true]
  rfl

theorem foldsIn_fold (e : Effect) (modifier : Modifier) :
    FoldsIn (·.fold e modifier) [modifier] (e.contribute modifier) := by
  unfold fold Effect.contribute
  split
  next text => exact foldsIn_noted (text ▸ rfl)
  next =>
    split
    next text => exact foldsIn_noted (text ▸ rfl)
    next =>
      split
      next text => exact foldsIn_noted (text ▸ rfl)
      next => exact foldsIn_summed modifier _

theorem foldsIn_foldIf (e : Effect) (applies : Bool) (modifier : Option Modifier) :
    FoldsIn (·.foldIf e applies modifier) (if applies then modifier.toList else [])
      (e.contributionIf applies modifier) := by
  cases applies with
  | false => exact foldsIn_nothing
  | true =>
    cases modifier with
    | none => exact foldsIn_nothing
    | some own => exact foldsIn_fold e own

private theorem foldsIn_foldDamage (e : Effect) (applies : Bool) (modifier : Option Modifier) :
    FoldsIn (·.foldDamage e applies modifier) (if applies then modifier.toList else [])
      (e.damageContributionIf applies modifier) := by
  cases applies with
  | false => exact foldsIn_nothing
  | true =>
    cases modifier with
    | none => exact foldsIn_nothing
    | some own => exact foldsIn_summed own _

private theorem foldsIn_foldAuto (label : String) (e : Effect) :
    FoldsIn (·.foldAuto label e) (e.autoModifiers label) (e.autoContribution label) := by
  let categories := RollCategories.ofLabel label
  have attack := foldsIn_foldIf e categories.attack (e.modifier? "attack")
  have save := foldsIn_foldIf e categories.save (e.saveModifier? (lowered label))
  have skill := foldsIn_foldIf e categories.skill (e.modifier? "skill")
  have damage := foldsIn_foldDamage e categories.damage (e.modifier? "damage")
  have all := attack.bind (save.bind (skill.bind damage))
  rw [← List.append_assoc, ← List.append_assoc, ← Contribution.append_assoc, ← Contribution.append_assoc] at all
  unfold foldAuto Effect.autoContribution Effect.autoModifiers
  split
  · exact foldsIn_nothing
  · exact all

theorem foldsIn_foldActive (label : String) (s : Session) :
    FoldsIn (·.foldActive label s) (s.activeEffects.flatMap (Effect.autoModifiers label))
      (s.autoContribution label) := by
  unfold foldActive Session.autoContribution
  induction s.activeEffects with
  | nil => exact foldsIn_nothing
  | cons e es ih =>
    rw [List.flatMap_cons, List.map_cons, Contribution.concat_cons]
    exact (foldsIn_foldAuto label e).bind ih

private theorem foldsIn_foldChosen (label : String) (e : Effect) :
    FoldsIn (·.foldChosen label e) (e.chosenModifier? label).toList ((e.chosenContribution? label).getD .none) := by
  have picked (applies : Bool) (key : String) :
      e.picked? applies key = (if applies then e.modifier? key else none).map e.contribute := by
    cases applies <;> rfl
  have given : e.chosenContribution? label = (e.chosenModifier? label).map e.contribute := by
    rw [Effect.chosenContribution?_eq, picked, picked, picked, ← Option.map_or, ← Option.map_or]
    rfl
  rw [given]
  intro request
  change (match e.chosenModifier? label with
    | some modifier => request.fold e modifier
    | none => .ok request) = _
  cases e.chosenModifier? label with
  | none => exact foldsIn_nothing request
  | some modifier => exact foldsIn_fold e modifier request

/-- The foldings one after the other add what the session writes for the roll. -/
theorem foldAll_eq (request : RollRequest) (label : String) (s : Session) (chosen : Option Effect) :
    request.foldAll label s chosen = (s.writtenContribution label chosen).map request.adding := by
  have folded : FoldsIn (foldAll label · s chosen) (s.foldedModifiers label chosen) (s.contribution label chosen) := by
    cases chosen with
    | none => exact (foldsIn_foldActive label s).bind foldsIn_nothing
    | some e => exact (foldsIn_foldActive label s).bind (foldsIn_foldChosen label e)
  refine (folded request).trans ?_
  unfold Session.writtenContribution
  split <;> rfl

end FoldsIn

end RollRequest

namespace Steps

variable {α β : Type} {first : Steps α} {next : α → Steps β} {s : Session}

theorem runFrom_bind :
    runFrom (first >>= next) s = match first.runFrom s with
      | (.ok a, t) => (next a).runFrom t
      | (.error fault, t) => (.error fault, t) := by
  unfold runFrom ExceptT.run StateT.run
  simp only [bind, ExceptT.bind, ExceptT.mk, StateT.bind, ExceptT.bindCont]
  cases first s with
  | mk outcome t => cases outcome <;> rfl

theorem runFrom_get : runFrom get s = (.ok s, s) := rfl

theorem runFrom_ofExcept (outcome : Except RollFault α) : runFrom (MonadExcept.ofExcept outcome) s = (outcome, s) := by
  cases outcome <;> rfl

end Steps

namespace RollCall

open Steps

variable (call : RollCall) (s : Session)

theorem runFrom_findChosen : call.findChosen.runFrom s = ((s.chosenEffect call.chosen).mapError .unknownEffect, s) := by
  unfold findChosen
  rw [runFrom_bind, runFrom_get]
  exact runFrom_ofExcept _

private theorem runFrom_resolve : call.resolve.runFrom s = (call.resolved, s) := runFrom_ofExcept _

theorem runFrom_foldActive (resolved : String) :
    (call.foldActive resolved).runFrom s = ((call.bare resolved).foldActive call.label s, s) := by
  unfold foldActive
  rw [runFrom_bind, runFrom_get]
  exact runFrom_ofExcept _

private theorem runFrom_spendChosen (request : RollRequest) (e : Effect) :
    (call.spendChosen request (some e)).runFrom s = match request.foldChosen call.label e with
      | .ok folded => (.ok folded, (s.removeEffect e.name).2)
      | .error fault => (.error fault, s) := by
  unfold spendChosen
  rw [runFrom_bind, runFrom_ofExcept]
  cases request.foldChosen call.label e <;> rfl

/-- All that is to be folded in is, or nothing is written. -/
theorem runFrom_folds {β : Type} (resolved : String) (chosen : Option Effect) (next : RollRequest → Steps β) :
    (call.foldActive resolved >>= fun request => call.spendChosen request chosen >>= next).runFrom s =
      match (call.bare resolved).foldAll call.label s chosen with
      | .ok request => (next request).runFrom (s.spend chosen)
      | .error fault => (.error fault, s) := by
  unfold RollRequest.foldAll
  rw [runFrom_bind, runFrom_foldActive]
  cases (call.bare resolved).foldActive call.label s with
  | error fault => rfl
  | ok folded =>
    cases chosen with
    | none => rfl
    | some e =>
      dsimp only
      rw [runFrom_bind, runFrom_spendChosen]
      change _ = match folded.foldChosen call.label e with
        | .ok request => (next request).runFrom (s.removeEffect e.name).2
        | .error fault => (.error fault, s)
      cases folded.foldChosen call.label e <;> rfl

theorem runFrom_applyAdvantage (request : RollRequest) :
    (applyAdvantage request).runFrom s = (.ok (request.advantaged s).1, (request.advantaged s).2) :=
  rfl

theorem resolved_of_not_writes {call : RollCall} (overlong : call.character.writes call.formula.toList = false) :
    call.resolved = .error .tooLong := by
  unfold resolved Character.rollFormula Character.resolve?
  rw [overlong]
  rfl

/-- A formula that cannot be resolved asks for a value that cannot be written, or there are no settings. -/
theorem cases_of_resolved {call : RollCall} {fault : RollFault} (failed : call.resolved = .error fault) :
    (call.character.writes call.formula.toList = false ∧ fault = .tooLong) ∨
      ∃ own, call.config = .error own ∧ fault = .configuration own := by
  cases written : call.character.writes call.formula.toList with
  | false =>
    rw [resolved_of_not_writes written] at failed
    exact Or.inl ⟨rfl, (Except.error.inj failed).symm⟩
  | true =>
    unfold resolved Character.rollFormula Character.resolve? at failed
    rw [written] at failed
    obtain ⟨own, unprepared, rfl⟩ := mapError_eq_error_iff.mp failed
    refine Or.inr ⟨own, ?_, rfl⟩
    have unsimplified := map_eq_error_iff.mp unprepared
    unfold Formula.simplifyIn Formula.simplifyWithin at unsimplified
    split at unsimplified
    · cases unsimplified
    · exact map_eq_error_iff.mp (map_eq_error_iff.mp unsimplified)

/-- With settings a formula is resolved exactly when all values that it asks for may be written. -/
theorem exists_resolved_iff {call : RollCall} {settings : Settings} (valid : call.config = .ok settings) :
    (∃ resolved, call.resolved = .ok resolved) ↔ call.character.writes call.formula.toList = true := by
  constructor
  · rintro ⟨resolved, formed⟩
    by_contra overlong
    rw [resolved_of_not_writes (Bool.eq_false_iff.mpr overlong)] at formed
    cases formed
  · intro written
    cases formed : call.resolved with
    | ok resolved => exact ⟨resolved, rfl⟩
    | error fault =>
      rcases cases_of_resolved formed with ⟨overlong, _⟩ | ⟨_, invalid, _⟩
      · rw [written] at overlong
        cases overlong
      · rw [valid] at invalid
        cases invalid

/-- The steps together come to what the call returns, and leave the session that it leaves. -/
theorem runFrom_steps : call.steps.runFrom s = (call.answer s, call.sessionAfter s) := by
  unfold steps answer sessionAfter
  rw [call.prepare_eq, beforeAdvantage, ← resolved, runFrom_bind, runFrom_findChosen]
  cases (s.chosenEffect call.chosen).mapError RollFault.unknownEffect with
  | error fault => rfl
  | ok chosen =>
    dsimp only
    rw [runFrom_bind, runFrom_resolve]
    -- Nothing is written yet, so a fault leaves the session here as it does in the roll.
    cases call.resolved with
    | error fault => rfl
    | ok resolved =>
      dsimp only
      rw [runFrom_folds, RollRequest.foldAll_eq]
      dsimp only [bind, Except.bind]
      cases s.writtenContribution call.label chosen <;> rfl

/-- A cleric whose spells have a difficulty with one digit too many. -/
def devout : Character :=
  { Character.plain with
    className := "Cleric"
    proficiencyBonus := (power 10 maxIntegerDigits - 1 : Nat) }

theorem valid_devout : devout.Valid :=
  { Character.valid_plain with proficiency := Int.natCast_nonneg _ }

/-- A check of the cleric that asks for the difficulty. -/
def devoutCall : RollCall := ⟨.ok .default, devout, "Check", "(#spellList.dc)", none, none⟩

theorem not_writes_devout : devout.writes "(#spellList.dc)".toList = false := by
  have unmentioned : Formula.mentionsSlotLevel "(#spellList.dc)".toList = false := by decide +kernel
  have compound : devout.bareValue? "(#spellList.dc)".toList = none := by decide +kernel
  let difficulty : Int := (power 10 maxIntegerDigits + 7 : Nat)
  have asked : Value.int difficulty ∈ devout.hashValues "(#spellList.dc)".toList := by decide +kernel
  have overlong : isWritable difficulty = false := by
    rw [Bool.eq_false_iff]
    intro short
    exact Nat.not_lt_of_le (Nat.le_add_right _ 7) (isWritable_iff.mp short)
  unfold Character.writes Character.writtenValues Character.referenceValues
  rw [unmentioned, compound, List.all_eq_false]
  refine ⟨_, List.mem_append_left _ (List.mem_append_left _ (List.mem_append_left _ asked)), ?_⟩
  exact Bool.eq_false_iff.mp overlong

end RollCall

end HeroSheet
