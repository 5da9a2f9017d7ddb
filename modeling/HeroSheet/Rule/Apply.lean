import HeroSheet.Rule.Basic
import HeroSheet.Sheet.Action

namespace HeroSheet

/-- Options after a rule was applied, and whether the standard buttons are left out. -/
structure RuleApplication where
  options : List ActionOption
  skipButtons : Bool
  deriving DecidableEq, Repr

namespace RuleApplication

/-- The options as they are. -/
def unchanged (options : List ActionOption) : RuleApplication := ⟨options, false⟩

/-- The options with one note on all of them. -/
def annotated (options : List ActionOption) (note : String) : RuleApplication :=
  ⟨options.map fun o => { o with note := some note }, false⟩

end RuleApplication

namespace Rule

/-- The notes of a rule, or a text for when it has none. -/
def notesOr (rule : Rule) (fallback : String) : String :=
  match rule.notes with
  | some notes => if notes.isEmpty then fallback else notes
  | none => fallback

def castOption (note : String) : ActionOption := ⟨.cast, "Cast Spell", none, "✨", some note⟩

/-- Spell rules annotate options, clear them, or put a button for casting in front. -/
def applyToSpell (rule : Rule) (options : List ActionOption) : RuleApplication :=
  match rule.shape with
  | .healingAnnouncement => .annotated options (rule.notesOr "Announces healing usage")
  | .tooComplicated => ⟨[], true⟩
  | .reusable => .annotated options (rule.notesOr "Can be recast without spell slot")
  | .conditionalDamage _ _ =>
    if options.isEmpty then .unchanged []
    else .unchanged (castOption (rule.notesOr "Spell has conditional damage") :: options)
  | _ => .unchanged options

/-- Text that is there and is not empty. -/
def nonempty : Option String → Option String := Option.filter fun s => !s.isEmpty

/-- Text, or the word for none. -/
def orNone (s : Option String) : String := s.getD "None"

/-- The description as a note. -/
def descriptionNote (rule : Rule) : Option String := nonempty (some rule.description)

/-- The note of a feature or a maneuver: that of its shape, or its description. -/
def featureNote (rule : Rule) : Option String :=
  let joined := fun (words : List String) => ", ".intercalate words
  match rule.shape with
  | .resourceTracking resource maxResource =>
    some ("Resource: " ++ resource ++ " (" ++ maxResource ++ ")")
  | .advantageDisadvantage => some ("⚖️ " ++ rule.description)
  | .conditionalAdvantage _ condition => some ("✅ " ++ condition)
  | .reaction _ timing => some ("⚡ " ++ timing)
  | .saveReroll trigger => some ("🔄 " ++ trigger)
  | .bonusAction _ => some "⚡ Bonus Action"
  | .resourceDamage resource _ _ => some ("💰 Cost: " ++ resource)
  | .innateMagic spells => some ("🔮 " ++ joined spells)
  | .damageResistance types => some ("🛡️ Resistance to: " ++ joined types)
  | .saveAdvantage saves condition =>
    if saves.isEmpty then some ("✅ Advantage on: " ++ orNone condition)
    else some ("✅ Advantage on: " ++ joined saves ++ " saves")
  | .flight speed limitation =>
    match nonempty limitation with
    | some limit => some ("🪶 Fly " ++ speed ++ " (" ++ limit ++ ")")
    | none => some ("🪶 Fly " ++ speed ++ " ")
  | .naturalWeapon formula damageType => some ("⚔️ " ++ formula ++ " " ++ damageType)
  | .telepathy range => some ("🧠 " ++ range ++ " telepathy")
  | .skillBonus skills condition =>
    if rule.category ≠ .racial then rule.descriptionNote
    else if !skills.isEmpty then some ("📚 Bonus to: " ++ joined skills)
    else ((nonempty condition).map fun c => "📚 " ++ c).or rule.descriptionNote
  | .contestCheck attack defense => some ("⚔️ " ++ attack ++ " vs " ++ defense)
  | .attackWithDebuff saveType saveFailure effect =>
    match nonempty saveType with
    | some save => some ("🎯 Hit + " ++ save ++ " save or " ++ orNone saveFailure)
    | none => ((nonempty effect).map fun e => "🎯 Hit + " ++ e).or rule.descriptionNote
  | .ally _ effect => some ("🤝 " ++ effect)
  | .areaDamage condition effect =>
    if rule.category = .combatManeuver then
      some ("💥 " ++ orNone condition ++ ": " ++ orNone effect)
    else rule.descriptionNote
  | .effectList environment effects =>
    some ((if environment then "🌍 " else "🛡️ ") ++ joined effects)
  | _ => rule.descriptionNote

/-- What a feature or a maneuver makes of options. -/
def applyToFeature (rule : Rule) (options : List ActionOption) : RuleApplication :=
  match rule.shape with
  | .utility => ⟨options, true⟩
  | _ =>
    match rule.featureNote with
    | some note => .annotated options note
    | none => .unchanged options

/-- What a rule, if there is one, makes of options. -/
def apply (rule : Option Rule) (options : List ActionOption) : RuleApplication :=
  match rule with
  | none => .unchanged options
  | some rule =>
    if rule.category = .spell then rule.applyToSpell options else rule.applyToFeature options

end Rule

end HeroSheet
