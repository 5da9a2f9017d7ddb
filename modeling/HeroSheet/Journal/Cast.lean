import HeroSheet.Journal.Context
import HeroSheet.Journal.Formula
import HeroSheet.Journal.Rule

namespace HeroSheet.Journal

/-- The formulas of a spell in the order in which they are prepared. -/
def spellFormulas (castLevel : Option Int) (spell : Spell) : List String :=
  let attack := (spell.attackRoll.filter fun formula =>
    !formula.isEmpty && formula != noAttackMark).toList
  let damage := (Character.declaredDamage spell).map (·.formula)
  (attack ++ damage).map fun formula =>
    match castLevel with
    | none => formula
    | some level => String.ofList (Formula.substituteSlotLevel level formula.toList)

/-- About the rolls of a spell. -/
def spellRollsNotices (config : Config) (c : Character) (castLevel : Option Int) (spell : Spell) :
    List Notice :=
  formulasNotices config c (spellFormulas castLevel spell)

/-- About the slots that are offered for a spell. -/
def offeringsNotices (c : Character) (defaultLevel spellLevel : Int) : List Notice :=
  match c.slotOfferings defaultLevel spellLevel with
  | .ok offerings => [.offeringsBuilt spellLevel offerings.length]
  | .error _ => []

/-- About how a cast ended. -/
def castEndNotices (spell : Spell) : Payment CastResolution → List Notice
  | .short shortfall => [.castRefused spell.name shortfall.resource]
  | .granted resolution =>
    if resolution.needsSlotSelection then [.slotAwaited spell.name spell.baseLevel]
    else [.castResolved spell.name resolution]

/-- The level at which a cast that is not refused makes its rolls. -/
def rolledLevel? (c : Character) (defaultLevel : Int) (spell : Spell) (options : CastOptions) :
    Option (Option Int) :=
  match c.payCast defaultLevel spell options with
  | .ok none => some none
  | .ok (some (.granted paid)) => some paid.castLevel
  | _ => none

/-- About casting a spell, up to the point where it fails. -/
def castNotices (c : Character) (config : Config) (spell : Spell) (options : CastOptions) :
    List Notice :=
  match config with
  | .error _ => []
  | .ok settings =>
    let edition := detectEdition settings (some c)
    let matched := spellRuleNotices .bundled spell.name (some edition)
    let tooComplicated := RuleCatalog.bundled.isTooComplicated spell.name (some edition)
    let rolls := match rolledLevel? c settings.defaultPactLevel spell options with
      | some castLevel => if tooComplicated then [] else spellRollsNotices config c castLevel spell
      | none => []
    let ending := match c.resolveCast config spell options with
      | .ok result => castEndNotices spell result
      | .error _ => []
    editionNotices (some c) ++ matched ++ matched ++ rolls ++ ending

/-- What is written down about casting a spell. -/
def castEntries (c : Character) (config : Config) (spell : Spell) (options : CastOptions) :
    List Entry :=
  within (.ofCharacter (some c) [("spell", .text spell.name)]) (castNotices c config spell options)

/-- About applying changes; that there are none is not told. -/
def changesNotices (c : Character) (changes : List ResourceChange) : List Notice :=
  match c.applyChanges changes with
  | .ok _ => if changes.isEmpty then [] else [.changesApplied c.name changes]
  | .error _ => []

end HeroSheet.Journal
