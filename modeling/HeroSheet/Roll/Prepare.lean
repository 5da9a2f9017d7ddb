import HeroSheet.Formula.Simplify
import HeroSheet.Roll.Advantage
import HeroSheet.Roll.Modifiers
import HeroSheet.Settings

namespace HeroSheet

namespace Formula

/-- The number of passes that a formula may take: the limit that is asked for, or that of the settings
when none or zero is. -/
def passLimit (config : Config) (limit : Option Int) : Except ConfigurationFault Nat :=
  match limit.filter (· ≠ 0) with
  | some n => .ok n.toNat
  | none => config.map fun settings => settings.maxSimplifyPasses.toNat

/-- The formula simplified within a limit, which an empty formula does not need. -/
def simplifyWithin (config : Config) (limit : Option Int) (cs : List Char) :
    Except ConfigurationFault (List Char) :=
  if cs.isEmpty then .ok [] else (passLimit config limit).map fun passes => simplify passes cs

/-- The formula simplified within the limit of the settings. -/
def simplifyIn (config : Config) (cs : List Char) : Except ConfigurationFault (List Char) :=
  simplifyWithin config none cs

end Formula

/-- The formula with the character's values, simplified. -/
def Character.prepareFormula (config : Config) (c : Character) (formula : String) :
    Except ConfigurationFault String :=
  (Formula.simplifyIn config (c.resolve formula.toList)).map String.ofList

/-- Why a roll cannot be prepared; an integer with too many digits cannot be written. -/
inductive RollFault where
  | unknownEffect (fault : UnknownEffect)
  | configuration (fault : ConfigurationFault)
  | tooLong
  deriving DecidableEq, Repr

/-- The formula of a roll with the character's values, simplified. -/
def Character.rollFormula (config : Config) (c : Character) (formula : String) : Except RollFault String :=
  match c.resolve? formula.toList with
  | some resolved => ((Formula.simplifyIn config resolved).map String.ofList).mapError .configuration
  | none => .error .tooLong

namespace Session

/-- The first active effect with a name that the player may spend. -/
def optionalEffect (s : Session) (name : String) : Except UnknownEffect Effect :=
  match s.activeEffects.find? fun e => e.name == name && !e.autoApply with
  | some effect => .ok effect
  | none => .error ⟨quotedString name ++ " is not an active optional effect", name⟩

/-- The effect to spend, if one was chosen. -/
def chosenEffect (s : Session) : Option String → Except UnknownEffect (Option Effect)
  | none => .ok none
  | some name => (s.optionalEffect name).map some

/-- What effects add to a roll, the chosen one last. -/
def contribution (s : Session) (label : String) (chosen : Option Effect) : Contribution :=
  s.autoContribution label ++ ((chosen.bind (Effect.chosenContribution? label)).getD .none)

/-- The modifiers that effects fold into a roll, that of the chosen one last. -/
def foldedModifiers (s : Session) (label : String) (chosen : Option Effect) : List Modifier :=
  s.activeEffects.flatMap (Effect.autoModifiers label) ++
    (chosen.bind (Effect.chosenModifier? label)).toList

/-- What effects add to a roll, if their modifiers may all be written. -/
def writtenContribution (s : Session) (label : String) (chosen : Option Effect) :
    Except RollFault Contribution :=
  if (s.foldedModifiers label chosen).all Modifier.isWritable then .ok (s.contribution label chosen)
  else .error .tooLong

/-- The session after a chosen effect was spent. -/
def spend (s : Session) : Option Effect → Session
  | none => s
  | some effect => (s.removeEffect effect.name).2

/-- A prepared roll, and the session after it: the chosen effect is spent, and so is advantage when it
was applied. A roll that fails changes nothing. -/
def prepareRoll (s : Session) (config : Config) (c : Character) (label formula : String)
    (chosen : Option String) (kind : Option RollKind) : Except RollFault (RollRequest × Session) := do
  let effect ← (s.chosenEffect chosen).mapError .unknownEffect
  let resolved ← c.rollFormula config formula
  let added ← s.writtenContribution label effect
  let final := (s.spend effect).applyAdvantage (resolved ++ added.terms) added.notes
  .ok (⟨label, final.formula, kind.getD (.ofLabel label), final.notes, none⟩, final.session)

end Session

end HeroSheet
