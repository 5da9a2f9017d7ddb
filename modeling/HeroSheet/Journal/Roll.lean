import HeroSheet.Dice.Roll
import HeroSheet.Journal.Context
import HeroSheet.Journal.Formula

namespace HeroSheet.Journal

/-- About activating an effect. -/
def addNotices (s : Session) (effect : Effect) : List Notice :=
  if (s.existing? effect).isSome then [.effectPresent effect.name]
  else [.effectAdded effect.name effect.kind]

/-- About activating effects one after the other. -/
def addAllNotices (s : Session) : List Effect → List Notice
  | [] => []
  | effect :: effects => addNotices s effect ++ addAllNotices (s.addEffect effect).2 effects

/-- About ending an effect. -/
def removeNotices (s : Session) (name : String) : List Notice :=
  match (s.removeEffect name).1 with
  | some _ => [.effectRemoved name]
  | none => []

/-- About concentrating on another spell; that a spell without a name ends is not told. -/
def concentrateNotices (s : Session) (spell : Option String) : List Notice :=
  match (s.concentrate spell).1 with
  | some previous => if previous.isEmpty then [] else [.concentrationReplaced previous spell]
  | none => []

/-- About keeping track of a cast. -/
def trackNotices (s : Session) (r : CastResolution) : List Notice :=
  match r.effect? .concentration with
  | some effect => concentrateNotices s (some effect.spell)
  | none => []

/-- About the effects that apply to a roll by themselves. -/
def appliedNotices (s : Session) (label : String) : List Notice :=
  (s.activeEffects.filter fun e => !(e.autoContribution label).notes.isEmpty).map
    fun e => .effectApplied e.name label

/-- About the effect that the player spends on a roll. -/
def chosenNotices (s : Session) (label : String) : Option Effect → List Notice
  | none => []
  | some effect =>
    (if (effect.chosenContribution? label).isSome then [] else [.effectIdle effect.name label]) ++
      removeNotices s effect.name ++ [.effectSpent effect.name label]

/-- About advantage. -/
def advantageNotices (s : Session) (formula : String) (notes : List String) : List Notice :=
  let after := s.applyAdvantage formula notes
  if after.notes.length = notes.length then [] else [.advantageApplied s.advantage after.formula]

/-- About preparing a roll, up to the point where it fails. -/
def prepareRollNotices (s : Session) (config : Config) (c : Character) (label formula : String)
    (chosen : Option String) : List Notice :=
  match s.chosenEffect chosen with
  | .error _ => []
  | .ok effect =>
    (if c.writes formula.toList then prepareFormulaNotices config c formula else []) ++
      match c.rollFormula config formula, s.writtenContribution label effect with
      | .error _, _ | _, .error _ => []
      | .ok resolved, .ok added =>
        let spent := s.spend effect
        let final := spent.applyAdvantage (resolved ++ added.terms) added.notes
        appliedNotices s label ++ chosenNotices s label effect ++
          advantageNotices spent (resolved ++ added.terms) added.notes ++
          [.rollPrepared label final.formula final.notes]

/-- What is written down about preparing a roll. -/
def prepareRollEntries (s : Session) (config : Config) (c : Character) (label formula : String)
    (chosen : Option String) : List Entry :=
  within (.ofCharacter (some c) []) (prepareRollNotices s config c label formula chosen)

/-- About rolling dice. -/
def diceNotices (config : Config) (seed : Option Int) (faces : Dice.Faces) (expression : String)
    (label : Option String) : List Notice :=
  match Dice.seed config seed with
  | .error _ => []
  | .ok seed =>
    .diceReady seed ::
      match Dice.library.rollFormula faces expression label with
      | .ok outcome => [.diceRolled expression outcome.total outcome.isCritical]
      | .error _ => []

end HeroSheet.Journal
