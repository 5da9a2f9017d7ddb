import HeroSheet.Cast.Resolution
import HeroSheet.Rule.Apply
import HeroSheet.Settings

namespace HeroSheet.Journal

inductive Notice where
  | effectAdded (effect : String) (kind : EffectKind)
  | effectPresent (effect : String)
  | effectRemoved (effect : String)
  | concentrationReplaced (previous : String) (spell : Option String)
  | slotLevelReserved (formula : List Char)
  | variableResolved (name : List Char) (value : Value)
  | variableUnresolved (name formula : List Char)
  | wrapperFailed (expression : List Char) (fault : String)
  | bracketUnresolved (expression substituted : List Char)
  | bracketFailed (expression : List Char) (fault : String)
  | braceFailed (expression : List Char) (fault : String)
  | formulaResolved (formula result : List Char)
  | arithmeticKept (formula : List Char) (fault : String)
  | countKept (count : List Char) (fault : String)
  | formulaSimplified (formula result : List Char) (passes : Nat)
  | effectApplied (effect label : String)
  | effectIdle (effect label : String)
  | effectSpent (effect label : String)
  | advantageApplied (state : Advantage) (formula : String)
  | rollPrepared (label formula : String) (annotations : List String)
  | catalogBuilt (rules : Nat)
  | ruleMatched (name : String) (rule : Rule)
  | edition2024 (character : String)
  | offeringsBuilt (spellLevel : Int) (count : Nat)
  | slotAwaited (spell : String) (minLevel : Int)
  | castRefused (spell resource : String)
  | castResolved (spell : String) (resolution : CastResolution)
  | changesApplied (character : String) (changes : List ResourceChange)
  | optionsBuilt (action : String) (rule : Option Rule) (application : RuleApplication)
  | costUnnamed (action cost : String)
  | costUntracked (action variableName : String)
  | actionRefused (action resource : String) (required : Int)
  | recoveryPlanned (character : String)
  | diceReady (seed : Option Int)
  | diceRolled (expression : String) (total : Int) (isCritical : Bool)

/-- A notice as it is written down: its level, what happened, and named fields. -/
structure Event where
  level : LogLevel
  title : String
  fields : List (String × Data)

namespace Notice

/-- A change as one word: the key and the signed amount. -/
def changeText (change : ResourceChange) : String :=
  change.key ++ (if change.delta < 0 then "" else "+") ++ toString change.delta

def debug (title : String) (fields : List (String × Data)) : Event := ⟨.debug, title, fields⟩

def info (title : String) (fields : List (String × Data)) : Event := ⟨.info, title, fields⟩

/-- The event that a notice is written down as. -/
def event : Notice → Event
  | .effectAdded effect kind =>
    debug "Effect added" [("effect", toData effect), ("kind", toData kind.name)]
  | .effectPresent effect => debug "Effect already active" [("effect", toData effect)]
  | .effectRemoved effect => debug "Effect removed" [("effect", toData effect)]
  | .concentrationReplaced previous spell =>
    info "Concentration replaced" [("previous", toData previous), ("spell", toData spell)]
  | .slotLevelReserved formula =>
    debug "Formula reserved for slot level" [("formula", toData formula)]
  | .variableResolved name value =>
    debug "Bare variable resolved" [("variable", toData name), ("value", toData value)]
  | .variableUnresolved name formula =>
    let report := Report.about .unresolvedVariable "Variable unresolved"
      [("variable", toData name), ("expression", toData formula)] []
    debug report.summary report.details
  | .wrapperFailed expression fault =>
    debug "Bracket function failed" [("expression", toData expression), ("error", toData fault)]
  | .bracketUnresolved expression substituted =>
    debug "Bracket left unresolved"
      [("expression", toData expression), ("substituted", toData substituted)]
  | .bracketFailed expression fault =>
    debug "Bracket evaluation failed" [("expression", toData expression), ("error", toData fault)]
  | .braceFailed expression fault =>
    debug "Inline calculation failed" [("expression", toData expression), ("error", toData fault)]
  | .formulaResolved formula result =>
    debug "Formula resolved" [("formula", toData formula), ("result", toData result)]
  | .arithmeticKept formula fault =>
    debug "Arithmetic not simplified" [("formula", toData formula), ("error", toData fault)]
  | .countKept count fault =>
    debug "Dice prefix not simplified" [("prefix", toData count), ("error", toData fault)]
  | .formulaSimplified formula result passes =>
    debug "Formula simplified"
      [("formula", toData formula), ("result", toData result), ("iterations", toData passes)]
  | .effectApplied effect label =>
    debug "Effect applied" [("effect", toData effect), ("label", toData label)]
  | .effectIdle effect label =>
    info "Chosen effect does not modify this roll" [("effect", toData effect), ("label", toData label)]
  | .effectSpent effect label =>
    debug "Optional effect consumed" [("effect", toData effect), ("label", toData label)]
  | .advantageApplied state formula =>
    debug "Advantage state applied" [("state", toData state.name), ("formula", toData formula)]
  | .rollPrepared label formula annotations =>
    debug "Roll prepared"
      [("label", toData label), ("formula", toData formula), ("annotations", toData annotations)]
  | .catalogBuilt rules => debug "Rule catalog built" [("rules", toData rules)]
  | .ruleMatched name rule =>
    debug "Edge case matched"
      [ ("name", toData name), ("category", toData rule.category.name),
        ("type", toData rule.shape.typeName) ]
  | .edition2024 character => debug "Detected 2024 ruleset" [("character", toData character)]
  | .offeringsBuilt spellLevel count =>
    debug "Slot offerings built" [("spell_level", toData spellLevel), ("offerings", toData count)]
  | .slotAwaited spell minLevel =>
    debug "Cast awaiting slot selection" [("spell", toData spell), ("min_level", toData minLevel)]
  | .castRefused spell resource =>
    info "Cast refused" [("spell", toData spell), ("resource", toData resource)]
  | .castResolved spell resolution =>
    info "Cast resolved"
      [ ("spell", toData spell),
        ("slot", toData (resolution.slotUsed.map fun usage => usage.key)),
        ("rolls", toData resolution.rolls.length), ("phase", toData resolution.phase.name) ]
  | .changesApplied character changes =>
    info "Resource changes applied"
      [("character", toData character), ("changes", toData (changes.map changeText))]
  | .optionsBuilt action rule application =>
    debug "Action options built"
      [ ("action", toData action), ("options", toData application.options.length),
        ("edge_case", toData (rule.map fun rule => rule.shape.typeName)),
        ("skip_normal_buttons", toData application.skipButtons) ]
  | .costUnnamed action cost =>
    debug "Cost without variable name skipped" [("action", toData action), ("cost", toData cost)]
  | .costUntracked action variableName =>
    debug "Cost resource not tracked"
      [("action", toData action), ("variable", toData variableName)]
  | .actionRefused action resource required =>
    info "Action refused"
      [("action", toData action), ("resource", toData resource), ("required", toData required)]
  | .recoveryPlanned character => info "Slot recovery planned" [("character", toData character)]
  | .diceReady seed => debug "DiceRoller initialized" [("seed", toData seed)]
  | .diceRolled expression total isCritical =>
    info "Dice rolled"
      [ ("expression", toData expression), ("total", toData total),
        ("is_critical", toData isCritical) ]

end Notice

end HeroSheet.Journal
