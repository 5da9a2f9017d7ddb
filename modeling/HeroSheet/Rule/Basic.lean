import HeroSheet.Settings

namespace HeroSheet

inductive RuleCategory where
  | spell
  | classFeature
  | racial
  | combatManeuver
  deriving DecidableEq, Repr

namespace RuleCategory

def all : List RuleCategory := [.spell, .classFeature, .racial, .combatManeuver]

def name : RuleCategory → String
  | .spell => "spell"
  | .classFeature => "class_feature"
  | .racial => "racial"
  | .combatManeuver => "combat_maneuver"

def ofName? (name : String) : Option RuleCategory := all.find? fun c => c.name == name

end RuleCategory

/-- What a bonus action is used for. -/
inductive BonusUse where
  | any
  | attack
  | defense
  | setup
  deriving DecidableEq, Repr

/-- What an ally gains. -/
inductive AllyGain where
  | reaction
  | movement
  | buff
  deriving DecidableEq, Repr

/-- Rules that consist of their description. -/
inductive Topic where
  | advantage
  | advantageGrant
  | attackOption
  | deathPrevention
  | defenseBonus
  | healing
  | healingPool
  | immunity
  | initiativeBonus
  | reroll
  | resourceDie
  | resourceFeature
  | resourceRecovery
  | rollReplacement
  | saveBonus
  | saveModifier
  | transformation
  | weaponMastery
  deriving DecidableEq, Repr

inductive RuleShape where
  | healingAnnouncement
  | tooComplicated
  | reusable
  | conditionalDamage (condition damageFormula : Option String)
  | utility
  | resourceTracking (resource maxResource : String)
  | advantageDisadvantage
  | conditionalAdvantage (situational : Bool) (condition : String)
  | reaction (attack : Bool) (timing : String)
  | saveReroll (trigger : String)
  | bonusAction (use : BonusUse)
  | resourceDamage (resource : String) (damageFormula damageType : Option String)
  | innateMagic (spells : List String)
  | damageResistance (damageTypes : List String)
  | saveAdvantage (saveTypes : List String) (condition : Option String)
  | flight (speed : String) (limitation : Option String)
  | naturalWeapon (damageFormula damageType : String)
  | telepathy (range : String)
  | skillBonus (skills : List String) (condition : Option String)
  | contestCheck (attackType defenseType : String)
  | attackWithDebuff (saveType saveFailure effect : Option String)
  | ally (gain : AllyGain) (effect : String)
  | areaDamage (condition effect : Option String)
  | effectList (environment : Bool) (effects : List String)
  | descriptive (topic : Topic)
  deriving DecidableEq, Repr

namespace BonusUse

def typeName : BonusUse → String
  | .any => "bonus_action"
  | .attack => "bonus_action_attack"
  | .defense => "bonus_action_defense"
  | .setup => "bonus_action_setup"

end BonusUse

namespace AllyGain

def typeName : AllyGain → String
  | .reaction => "ally_reaction"
  | .movement => "ally_movement"
  | .buff => "ally_buff"

end AllyGain

namespace Topic

def all : List Topic :=
  [ .advantage, .advantageGrant, .attackOption, .deathPrevention, .defenseBonus, .healing,
    .healingPool, .immunity, .initiativeBonus, .reroll, .resourceDie, .resourceFeature,
    .resourceRecovery, .rollReplacement, .saveBonus, .saveModifier, .transformation,
    .weaponMastery ]

def typeName : Topic → String
  | .advantage => "advantage"
  | .advantageGrant => "advantage_grant"
  | .attackOption => "attack_option"
  | .deathPrevention => "death_prevention"
  | .defenseBonus => "defense_bonus"
  | .healing => "healing"
  | .healingPool => "healing_pool"
  | .immunity => "immunity"
  | .initiativeBonus => "initiative_bonus"
  | .reroll => "reroll"
  | .resourceDie => "resource_die"
  | .resourceFeature => "resource_feature"
  | .resourceRecovery => "resource_recovery"
  | .rollReplacement => "roll_replacement"
  | .saveBonus => "save_bonus"
  | .saveModifier => "save_modifier"
  | .transformation => "transformation"
  | .weaponMastery => "weapon_mastery"

end Topic

/-- The type under which a rule is listed. -/
def RuleShape.typeName : RuleShape → String
  | .healingAnnouncement => "healing_announcement"
  | .tooComplicated => "too_complicated"
  | .reusable => "reusable"
  | .conditionalDamage _ _ => "conditional_damage"
  | .utility => "utility_dm_discretion"
  | .resourceTracking _ _ => "resource_tracking"
  | .advantageDisadvantage => "advantage_disadvantage"
  | .conditionalAdvantage situational _ =>
    if situational then "situational_advantage" else "conditional_advantage"
  | .reaction attack _ => if attack then "reaction_attack" else "reaction"
  | .saveReroll _ => "save_reroll"
  | .bonusAction use => use.typeName
  | .resourceDamage _ _ _ => "resource_damage"
  | .innateMagic _ => "innate_magic"
  | .damageResistance _ => "damage_resistance"
  | .saveAdvantage _ _ => "save_advantage"
  | .flight _ _ => "flight"
  | .naturalWeapon _ _ => "natural_weapon"
  | .telepathy _ => "telepathy"
  | .skillBonus _ _ => "skill_bonus"
  | .contestCheck _ _ => "contest_check"
  | .attackWithDebuff _ _ _ => "attack_with_debuff"
  | .ally gain _ => gain.typeName
  | .areaDamage _ _ => "area_damage"
  | .effectList environment _ => if environment then "environmental_modifier" else "defensive_action"
  | .descriptive topic => topic.typeName

/-- A rule of a table, under the name that the table gives it. -/
structure Rule where
  name : String
  category : RuleCategory
  description : String
  edition : Option Edition
  notes : Option String
  shape : RuleShape
  deriving DecidableEq, Repr

end HeroSheet
