import HeroSheet.Roll.Prepare
import HeroSheet.Rule.Apply
import HeroSheet.Rule.Catalog
import HeroSheet.Rule.Edition

namespace HeroSheet

/-- The tables in which rules for actions are looked for. -/
def featureCategories : List RuleCategory := [.classFeature, .racial, .combatManeuver]

/-- Text of one integer: digits, with a sign in front and blanks around. -/
def isIntegerText (cs : List Char) : Bool :=
  let digits := (signSpan (Text.trim cs)).2
  !digits.isEmpty && digits.all isDecimal

/-- A d20 with a bonus. -/
def bonusFormula (bonus : Int) : String :=
  if 0 ≤ bonus then "1d20+" ++ toString bonus else "1d20" ++ toString bonus

/-- The formula of an attack; a bare bonus is added to a d20. A bonus can be unreadable for its length,
or for a separator beside it. -/
def attackFormula (attackRoll : String) : Except NumeralFault String :=
  if mentions attackRoll "d20" then .ok attackRoll
  else if isIntegerText attackRoll.toList then (readInteger attackRoll.toList).map bonusFormula
  else .ok ("1d20+" ++ String.ofList (Text.trim attackRoll.toList))

/-- A die somewhere in the formula: a `d` and a digit. -/
def hasDice : List Char → Bool
  | c :: cs => (c == 'd' && cs.head?.any isDecimal) || hasDice cs
  | [] => false

/-- The kind of roll that an option makes. -/
def OptionKind.rollKind? : OptionKind → Option RollKind
  | .attack => some .attack
  | .damage => some .damage
  | .healing => some .healing
  | .temporary => some .temporary
  | .cast => none

/-- Why an action has no options. -/
inductive ActionFault where
  | attackBonus (fault : NumeralFault)
  | configuration (fault : ConfigurationFault)
  deriving DecidableEq, Repr

namespace Action

def attackOption (action : Action) : Except NumeralFault (List ActionOption) :=
  match action.attackRoll with
  | none => .ok []
  | some roll =>
    if roll.isEmpty then .ok []
    else (attackFormula roll).map fun formula => [⟨.attack, "Attack", some formula, "🎯", none⟩]

/-- There is no attack roll. -/
def lacksAttack (action : Action) : Bool := (action.attackRoll.getD "").isEmpty

/-- The option for the damage formula, if it has dice. -/
def damageOption (action : Action) : List ActionOption :=
  match action.damage with
  | none => []
  | some formula =>
    if !hasDice (Text.removeAll [' '] formula.toList) then []
    else
      let damageType := lowered action.damageType
      let heals := mentions damageType "heal"
      let label :=
        if heals then "Heal"
        else if action.actionType == "feature" || action.lacksAttack then "Roll"
        else "Damage"
      if heals then [⟨.healing, label, some formula, "💚", none⟩]
      else if mentions damageType "temp" then [⟨.temporary, label, some formula, "🛡️", none⟩]
      else [⟨.damage, label, some formula, "💥", none⟩]

/-- The options before any rule is applied. -/
def plainOptions (action : Action) : Except NumeralFault (List ActionOption) :=
  action.attackOption.map (· ++ action.damageOption)

/-- The rule for an action, in the edition of the character's sheet. -/
def rule? (action : Action) (settings : Settings) (c : Option Character) : Option Rule :=
  RuleCatalog.bundled.lookupFirst action.name featureCategories (some (detectEdition settings c))

/-- The options of an action after its rule was applied. -/
def options (action : Action) (config : Config) (c : Option Character) :
    Except ActionFault RuleApplication := do
  let plain ← action.plainOptions.mapError .attackBonus
  let settings ← config.mapError .configuration
  .ok (Rule.apply (action.rule? settings c) plain)

end Action

/-- What using an action comes to. -/
structure ActionResolution where
  text : String
  rolls : List RollRequest
  description : Option String
  edgeCase : Option RuleApplication
  deriving DecidableEq, Repr

namespace Action

/-- The formula of an option; without a character it stays as it is written. -/
def optionFormula (config : Config) (c : Option Character) (formula : String) :
    Except ConfigurationFault String :=
  match c with
  | none => .ok formula
  | some c => c.prepareFormula config formula

/-- The roll of an option, if it makes one. -/
def optionRoll (action : Action) (config : Config) (c : Option Character) (o : ActionOption) :
    Except ConfigurationFault (List RollRequest) :=
  match Rule.nonempty o.formula, o.kind.rollKind? with
  | some formula, some kind =>
    (optionFormula config c formula).map fun prepared =>
      [⟨action.name ++ " - " ++ o.label, prepared, kind, [],
        if o.kind = .attack then none else Rule.nonempty (some action.damageType)⟩]
  | _, _ => .ok []

/-- Using an action: one roll for each option with a formula. -/
def use (action : Action) (config : Config) (c : Option Character) :
    Except ActionFault ActionResolution := do
  let application ← action.options config c
  let rolls ← (application.options.mapM (action.optionRoll config c)).mapError .configuration
  .ok ⟨action.name, rolls.flatten, Rule.nonempty (some action.description),
    if application.skipButtons then some application else none⟩

end Action

end HeroSheet
