import HeroSheet.Proofs.Outcome
import HeroSheet.Proofs.Roll.SingleD20
import HeroSheet.Proofs.Sheet.Valid
import HeroSheet.Roll.Prepare

namespace HeroSheet

namespace Session

/-- The session with another advantage for its next roll. -/
def withAdvantage (s : Session) (state : Advantage) : Session := { s with advantage := state }

/-- The session without advantage for its next roll. -/
def calm (s : Session) : Session := s.withAdvantage .normal

/-- A change of the session that has nothing to do with its advantage. -/
structure Change where
  write : Session → Session
  apart : ∀ s state, write (s.withAdvantage state) = (write s).withAdvantage state

namespace Change

def addEffect (effect : Effect) : Change where
  write s := (s.addEffect effect).2
  apart s state := by
    have same : (s.withAdvantage state).existing? effect = s.existing? effect := by
      unfold existing?
      cases effect.kind <;> rfl
    unfold Session.addEffect
    rw [same]
    cases s.existing? effect with
    | some present => rfl
    | none => cases effect.kind <;> rfl

def concentrate (spell : Option String) : Change where
  write s := (s.concentrate spell).2
  apart _ _ := rfl

end Change

section WithAdvantage

variable (s : Session) (state : Advantage)

@[simp] theorem withAdvantage_advantage : (s.withAdvantage state).advantage = state := rfl

@[simp] theorem withAdvantage_self : s.withAdvantage s.advantage = s := rfl

theorem calm_of_normal {s : Session} (normal : s.advantage = .normal) : s.calm = s := by
  rw [calm, ← normal, withAdvantage_self]

theorem removeEffect_withAdvantage (name : String) :
    ((s.withAdvantage state).removeEffect name).2 = (s.removeEffect name).2.withAdvantage state := by
  have buffs : (s.withAdvantage state).buffs = s.buffs := rfl
  have conditions : (s.withAdvantage state).conditions = s.conditions := rfl
  unfold removeEffect
  rw [buffs, conditions]
  cases takeNamed? name s.buffs with
  | some taken => rfl
  | none => cases takeNamed? name s.conditions <;> rfl

private theorem removeEffect_advantage (name : String) : (s.removeEffect name).2.advantage = s.advantage := by
  have same := removeEffect_withAdvantage s s.advantage name
  rw [withAdvantage_self] at same
  rw [same, withAdvantage_advantage]

private theorem chosenEffect_withAdvantage (chosen : Option String) :
    (s.withAdvantage state).chosenEffect chosen = s.chosenEffect chosen := by
  cases chosen <;> rfl

private theorem spend_withAdvantage (chosen : Option Effect) :
    (s.withAdvantage state).spend chosen = (s.spend chosen).withAdvantage state := by
  cases chosen with
  | none => rfl
  | some effect => exact removeEffect_withAdvantage s state effect.name

private theorem spend_advantage (chosen : Option Effect) : (s.spend chosen).advantage = s.advantage := by
  cases chosen with
  | none => rfl
  | some effect => exact removeEffect_advantage s effect.name

end WithAdvantage

end Session

namespace Session.Change

def removeEffect (name : String) : Change where
  write s := (s.removeEffect name).2
  apart s state := removeEffect_withAdvantage s state name

private theorem advantage_write (change : Change) (s : Session) : (change.write s).advantage = s.advantage := by
  have same := change.apart s s.advantage
  rw [withAdvantage_self] at same
  rw [same, withAdvantage_advantage]

end Session.Change

/-- A roll that is asked for. -/
structure RollCall where
  config : Config
  character : Character
  label : String
  formula : String
  chosen : Option String
  kind : Option RollKind

/-- The request with the advantage of the session, which is then spent. -/
def RollRequest.advantaged (request : RollRequest) (s : Session) : RollRequest × Session :=
  let made := s.applyAdvantage request.formula request.annotations
  ({ request with formula := made.formula, annotations := made.notes }, made.session)

/-- The request with other dice for every single d20, and one more note. -/
def RollRequest.withDice (request : RollRequest) (dice : List Char) (note : String) : RollRequest :=
  { request with
    formula := String.ofList (Formula.withDice dice request.formula.toList)
    annotations := request.annotations ++ [note] }

namespace RollCall

variable (call : RollCall) (s : Session)

def prepare : Except RollFault (RollRequest × Session) :=
  s.prepareRoll call.config call.character call.label call.formula call.chosen call.kind

/-- What the call returns. -/
def answer : Except RollFault RollRequest := (call.prepare s).map Prod.fst

/-- The session after the call; a call that fails leaves it as it is. -/
def sessionAfter : Session :=
  match call.prepare s with
  | .ok (_, after) => after
  | .error _ => s

/-- The request as it is before the advantage step, and the session there. -/
def beforeAdvantage : Except RollFault (RollRequest × Session) := do
  let effect ← (s.chosenEffect call.chosen).mapError .unknownEffect
  let resolved ← call.character.rollFormula call.config call.formula
  let added ← s.writtenContribution call.label effect
  .ok (⟨call.label, resolved ++ added.terms, call.kind.getD (.ofLabel call.label), added.notes, none⟩, s.spend effect)

/-- The call succeeds, and its formula before the advantage step has a single d20. -/
def RollsD20 : Prop :=
  ∃ request after, call.beforeAdvantage s = .ok (request, after) ∧ Formula.HasD20 request.formula.toList

theorem prepare_eq : call.prepare s = (call.beforeAdvantage s).map fun made => made.1.advantaged made.2 := by
  unfold prepare beforeAdvantage Session.prepareRoll
  cases (s.chosenEffect call.chosen).mapError RollFault.unknownEffect with
  | error fault => rfl
  | ok effect =>
    cases call.character.rollFormula call.config call.formula with
    | error fault => rfl
    | ok resolved =>
      dsimp only [bind, Except.bind]
      cases s.writtenContribution call.label effect <;> rfl

/-- Up to the advantage step advantage is not looked at. -/
theorem beforeAdvantage_withAdvantage (state : Advantage) :
    call.beforeAdvantage (s.withAdvantage state) =
      (call.beforeAdvantage s).map fun made => (made.1, made.2.withAdvantage state) := by
  unfold beforeAdvantage
  rw [Session.chosenEffect_withAdvantage]
  cases (s.chosenEffect call.chosen).mapError RollFault.unknownEffect with
  | error fault => rfl
  | ok effect =>
    cases call.character.rollFormula call.config call.formula with
    | error fault => rfl
    | ok resolved =>
      have same : (s.withAdvantage state).writtenContribution call.label effect =
        s.writtenContribution call.label effect := rfl
      dsimp only [bind, Except.bind]
      rw [Session.spend_withAdvantage, same]
      cases s.writtenContribution call.label effect <;> rfl

theorem advantage_beforeAdvantage {call : RollCall} {s after : Session} {request : RollRequest}
    (made : call.beforeAdvantage s = .ok (request, after)) : after.advantage = s.advantage := by
  obtain ⟨effect, _, made⟩ := bind_eq_ok_iff.mp made
  obtain ⟨resolved, _, made⟩ := bind_eq_ok_iff.mp made
  obtain ⟨added, _, made⟩ := bind_eq_ok_iff.mp made
  obtain ⟨_, rfl⟩ := Prod.mk.inj (Except.ok.inj made)
  exact Session.spend_advantage s effect

end RollCall

section Advantaged

variable {s : Session} {request : RollRequest}

theorem advantaged_of_normal (normal : s.advantage = .normal) : request.advantaged s = (request, s) := by
  unfold RollRequest.advantaged Session.applyAdvantage
  rw [normal]
  rfl

/-- Advantage waits when there is no single d20. -/
theorem advantaged_of_not_hasD20 (absent : ¬ Formula.HasD20 request.formula.toList) :
    request.advantaged s = (request, s) := by
  have unreplaced : (s.advantage.dice.bind fun dice => Formula.replaceD20? dice request.formula.toList) = none := by
    cases s.advantage.dice with
    | none => rfl
    | some dice => exact Formula.replaceD20?_of_not absent
  unfold RollRequest.advantaged Session.applyAdvantage
  rw [unreplaced]

theorem advantaged_of_hasD20 {dice : List Char} (held : s.advantage.dice = some dice)
    (present : Formula.HasD20 request.formula.toList) :
    request.advantaged s = (request.withDice dice s.advantage.note, s.calm) := by
  have replaced : (s.advantage.dice.bind fun dice => Formula.replaceD20? dice request.formula.toList) =
      some (Formula.withDice dice request.formula.toList) := by
    rw [held]
    exact Formula.replaceD20?_of_hasD20 held present
  unfold RollRequest.advantaged Session.applyAdvantage
  rw [replaced]
  rfl

theorem exists_dice {state : Advantage} (held : state ≠ .normal) : ∃ dice, state.dice = some dice := by
  cases state with
  | normal => exact absurd rfl held
  | advantage => exact ⟨_, rfl⟩
  | disadvantage => exact ⟨_, rfl⟩

end Advantaged

/-- What happens to a session: a roll, which may fail, or a change that is not about advantage. -/
inductive RollEvent where
  | roll (call : RollCall)
  | other (change : Session.Change)

namespace Session

/-- The session after an event. -/
def step (s : Session) : RollEvent → Session
  | .roll call => call.sessionAfter s
  | .other change => change.write s

/-- The session after a run. -/
def after (s : Session) (events : List RollEvent) : Session := events.foldl step s

/-- The event is a roll that succeeds and has a single d20 in its formula before the advantage step. -/
def RollsD20 (s : Session) : RollEvent → Prop
  | .roll call => call.RollsD20 s
  | .other _ => False

/-- Some event of the run is such a roll. -/
def RollsD20Within (s : Session) (events : List RollEvent) : Prop :=
  ∃ front event back, events = front ++ event :: back ∧ (s.after front).RollsD20 event

section Step

variable {s : Session} {call : RollCall} {event : RollEvent}

theorem step_roll {request : RollRequest} {after : Session} (made : call.beforeAdvantage s = .ok (request, after)) :
    s.step (.roll call) = (request.advantaged after).2 := by
  have prepared := call.prepare_eq s
  rw [made] at prepared
  change call.sessionAfter s = _
  unfold RollCall.sessionAfter
  rw [prepared]
  rfl

theorem step_roll_of_error {fault : RollFault} (failed : call.beforeAdvantage s = .error fault) :
    s.step (.roll call) = s := by
  have prepared := call.prepare_eq s
  rw [failed] at prepared
  change call.sessionAfter s = _
  unfold RollCall.sessionAfter
  rw [prepared]
  rfl

theorem calm_advantaged (request : RollRequest) (s : Session) : (request.advantaged s).2.calm = s.calm := by
  by_cases normal : s.advantage = .normal
  · rw [advantaged_of_normal normal]
  · obtain ⟨dice, held⟩ := exists_dice normal
    by_cases present : Formula.HasD20 request.formula.toList
    · rw [advantaged_of_hasD20 held present]
      rfl
    · rw [advantaged_of_not_hasD20 present]

/-- But for the advantage, an event does to the session what it does without advantage. -/
theorem calm_step (s : Session) (event : RollEvent) : (s.step event).calm = s.calm.step event := by
  cases event with
  | other change => exact (change.apart s .normal).symm
  | roll call =>
    have before : call.beforeAdvantage s.calm = _ := call.beforeAdvantage_withAdvantage s .normal
    cases made : call.beforeAdvantage s with
    | error fault =>
      rw [made] at before
      rw [step_roll_of_error made, step_roll_of_error before]
    | ok pair =>
      obtain ⟨request, after⟩ := pair
      rw [made] at before
      rw [step_roll made, step_roll before, calm_advantaged, advantaged_of_normal rfl]
      rfl

theorem advantage_step_of_rollsD20 (rolls : s.RollsD20 event) : (s.step event).advantage = .normal := by
  cases event with
  | other change => exact rolls.elim
  | roll call =>
    obtain ⟨request, after, made, present⟩ := rolls
    rw [step_roll made]
    by_cases normal : after.advantage = .normal
    · rw [advantaged_of_normal normal, normal]
    · obtain ⟨dice, held⟩ := exists_dice normal
      rw [advantaged_of_hasD20 held present]
      rfl

theorem advantage_step_of_not_rollsD20 (waits : ¬ s.RollsD20 event) : (s.step event).advantage = s.advantage := by
  cases event with
  | other change => exact change.advantage_write s
  | roll call =>
    cases made : call.beforeAdvantage s with
    | error fault => rw [step_roll_of_error made]
    | ok pair =>
      obtain ⟨request, after⟩ := pair
      have absent : ¬ Formula.HasD20 request.formula.toList :=
        fun present => waits ⟨request, after, made, present⟩
      rw [step_roll made, advantaged_of_not_hasD20 absent]
      exact RollCall.advantage_beforeAdvantage made

/-- Without advantage the call returns the request as it was before the advantage step. -/
theorem answer_calm (call : RollCall) (s : Session) : call.answer s.calm = (call.beforeAdvantage s).map Prod.fst := by
  have before := call.beforeAdvantage_withAdvantage s .normal
  unfold RollCall.answer
  rw [call.prepare_eq, calm, before]
  cases call.beforeAdvantage s with
  | error fault => rfl
  | ok pair =>
    have normal : (pair.2.withAdvantage .normal).advantage = .normal := rfl
    exact congrArg (Except.ok ·.1) (advantaged_of_normal normal)

theorem answer_of_normal (normal : s.advantage = .normal) : call.answer s = call.answer s.calm := by
  rw [calm_of_normal normal]

private theorem answer_of_not_rollsD20 (waits : ¬ call.RollsD20 s) : call.answer s = call.answer s.calm := by
  rw [answer_calm]
  unfold RollCall.answer
  rw [call.prepare_eq]
  cases made : call.beforeAdvantage s with
  | error fault => rfl
  | ok pair =>
    obtain ⟨request, after⟩ := pair
    have absent : ¬ Formula.HasD20 request.formula.toList :=
      fun present => waits ⟨request, after, made, present⟩
    exact congrArg (Except.ok ·.1) (advantaged_of_not_hasD20 absent)

private theorem answer_of_rollsD20 {dice : List Char} (held : s.advantage.dice = some dice) (rolls : call.RollsD20 s) :
    ∃ request, call.answer s.calm = .ok request ∧ Formula.HasD20 request.formula.toList ∧
      call.answer s = .ok (request.withDice dice s.advantage.note) := by
  obtain ⟨request, after, made, present⟩ := rolls
  have same := RollCall.advantage_beforeAdvantage made
  refine ⟨request, ?_, present, ?_⟩
  · rw [answer_calm, made]
    rfl
  · unfold RollCall.answer
    rw [call.prepare_eq, made]
    rw [← same] at held ⊢
    exact congrArg (Except.ok ·.1) (advantaged_of_hasD20 held present)

end Step

section Run

/-- But for the advantage, a run does to the session what it does without advantage. -/
theorem calm_after (s : Session) (events : List RollEvent) : (s.after events).calm = s.calm.after events := by
  induction events generalizing s with
  | nil => rfl
  | cons event events ih =>
    change ((s.step event).after events).calm = (s.calm.step event).after events
    rw [ih, calm_step]

private theorem not_rollsD20Within_nil (s : Session) : ¬ s.RollsD20Within [] := by
  rintro ⟨front, event, back, eq, _⟩
  exact List.append_ne_nil_of_right_ne_nil front (List.cons_ne_nil event back) eq.symm

theorem rollsD20Within_cons {s : Session} {event : RollEvent} {events : List RollEvent} :
    s.RollsD20Within (event :: events) ↔ s.RollsD20 event ∨ (s.step event).RollsD20Within events := by
  constructor
  · rintro ⟨front, found, back, eq, rolls⟩
    cases front with
    | nil =>
      obtain ⟨rfl, rfl⟩ := List.cons.inj eq
      exact Or.inl rolls
    | cons first front =>
      obtain ⟨rfl, rfl⟩ := List.cons.inj eq
      exact Or.inr ⟨front, found, back, rfl, rolls⟩
  · rintro (rolls | ⟨front, found, back, rfl, rolls⟩)
    · exact ⟨[], event, events, rfl, rolls⟩
    · exact ⟨event :: front, found, back, rfl, rolls⟩

/-- Advantage that is spent does not come back. -/
theorem advantage_after_of_normal {s : Session} (normal : s.advantage = .normal) (events : List RollEvent) :
    (s.after events).advantage = .normal := by
  induction events generalizing s with
  | nil => exact normal
  | cons event events ih =>
    refine ih ?_
    by_cases rolls : s.RollsD20 event
    · exact advantage_step_of_rollsD20 rolls
    · rw [advantage_step_of_not_rollsD20 rolls, normal]

theorem advantage_after_of_rollsD20Within {s : Session} {events : List RollEvent} (rolls : s.RollsD20Within events) :
    (s.after events).advantage = .normal := by
  induction events generalizing s with
  | nil => exact absurd rolls (not_rollsD20Within_nil s)
  | cons event events ih =>
    rcases rollsD20Within_cons.mp rolls with here | later
    · exact advantage_after_of_normal (advantage_step_of_rollsD20 here) events
    · exact ih later

theorem advantage_after_of_not_rollsD20Within {s : Session} {events : List RollEvent}
    (waits : ¬ s.RollsD20Within events) : (s.after events).advantage = s.advantage := by
  induction events generalizing s with
  | nil => rfl
  | cons event events ih =>
    obtain ⟨here, later⟩ := not_or.mp (fun rolls => waits (rollsD20Within_cons.mpr rolls))
    change ((s.step event).after events).advantage = s.advantage
    rw [ih later, advantage_step_of_not_rollsD20 here]

/-- In a run that starts with advantage, the first roll that succeeds with a single d20 in its formula has that d20
rewritten and the note of advantage as its last; every other roll returns what it returns in the run that starts
without advantage; and the advantage is spent at the end exactly when there was such a roll. -/
theorem advantage_spent_once (s : Session) (held : s.advantage ≠ .normal) (events : List RollEvent) :
    (∀ front call back, events = front ++ .roll call :: back →
      (¬ s.RollsD20Within front → call.RollsD20 (s.after front) →
        ∃ dice request, s.advantage.dice = some dice ∧ call.answer (s.calm.after front) = .ok request ∧
          Formula.HasD20 request.formula.toList ∧
          call.answer (s.after front) = .ok (request.withDice dice s.advantage.note)) ∧
      (s.RollsD20Within front ∨ ¬ call.RollsD20 (s.after front) →
        call.answer (s.after front) = call.answer (s.calm.after front))) ∧
    ((s.after events).advantage = .normal ↔ s.RollsD20Within events) := by
  constructor
  · intro front call back _
    rw [← calm_after]
    constructor
    · intro first rolls
      have kept := advantage_after_of_not_rollsD20Within first
      obtain ⟨dice, own⟩ := exists_dice held
      have own' := own
      rw [← kept] at own'
      obtain ⟨request, plain, present, rewritten⟩ := answer_of_rollsD20 own' rolls
      rw [kept] at rewritten
      exact ⟨dice, request, own, plain, present, rewritten⟩
    · rintro (spent | waits)
      · exact answer_of_normal (advantage_after_of_rollsD20Within spent)
      · exact answer_of_not_rollsD20 waits
  · constructor
    · intro normal
      by_contra waits
      rw [advantage_after_of_not_rollsD20Within waits] at normal
      exact held normal
    · exact advantage_after_of_rollsD20Within

/-- A roll by a plain character. -/
def plainRoll (label formula : String) : RollCall := ⟨.ok .default, .plain, label, formula, none, none⟩

/-- A roll of damage leaves the advantage for the attack behind it. -/
theorem advantage_spent_on_attack :
    let s := empty.withAdvantage .advantage
    let damage : RollEvent := .roll (plainRoll "Damage" "2d6")
    let attack := plainRoll "Attack" "d20+5"
    s.advantage ≠ .normal ∧
      attack.answer (s.after [damage]) = .ok ⟨"Attack", "2d20kh1+5", .attack, ["[⚡ Advantage]"], none⟩ ∧
      s.RollsD20Within [damage, .roll attack] ∧ ¬ s.RollsD20Within [damage] := by
  intro s damage attack
  have held : s.advantage ≠ .normal := by decide
  refine ⟨held, by decide +kernel, (advantage_spent_once s held _).2.mp (by decide +kernel), ?_⟩
  intro spent
  have normal := (advantage_spent_once s held [damage]).2.mpr spent
  revert normal
  decide +kernel

end Run

end Session

end HeroSheet
