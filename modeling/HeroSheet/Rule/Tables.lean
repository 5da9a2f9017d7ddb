import HeroSheet.Rule.Basic

/-!
The rules that come with the library. A name that ends in an edition in parentheses is the variant of
the name without it for that edition.
-/

namespace HeroSheet.Rule

/-- A rule for every edition. -/
def common (category : RuleCategory) (name : String) (shape : RuleShape) (description : String) :
    Rule :=
  ⟨name, category, description, none, none, shape⟩

/-- The rule for one edition. -/
def forEdition (rule : Rule) (edition : Edition) : Rule := { rule with edition := some edition }

/-- The rule with a note on its edition. -/
def noted (rule : Rule) (notes : String) : Rule := { rule with notes := some notes }

def spell : String → RuleShape → String → Rule := common .spell

def classFeature : String → RuleShape → String → Rule := common .classFeature

def racial : String → RuleShape → String → Rule := common .racial

def maneuver : String → RuleShape → String → Rule := common .combatManeuver

def healingSummary : String := "Healing spell that announces usage"

def tooComplicatedSummary : String := "Too complicated for normal casting - requires DM intervention"

def reusableSummary : String := "Can be recast without using spell slot"

def conditionalSummary : String := "Has conditional/situational damage - adds Cast button"

def spells : List Rule :=
  [ spell "cure wounds" .healingAnnouncement healingSummary,
    spell "healing word" .healingAnnouncement healingSummary,
    spell "lesser restoration" .healingAnnouncement healingSummary,
    spell "mass cure wounds" .healingAnnouncement healingSummary,
    spell "mass healing word" .healingAnnouncement healingSummary,
    spell "heal" .healingAnnouncement healingSummary,
    spell "regenerate" .healingAnnouncement healingSummary,
    spell "mass heal" .healingAnnouncement healingSummary,
    spell "wish" .tooComplicated tooComplicatedSummary,
    spell "true polymorph" .tooComplicated tooComplicatedSummary,
    spell "shapechange" .tooComplicated tooComplicatedSummary,
    spell "plane shift" .tooComplicated tooComplicatedSummary,
    spell "teleport" .tooComplicated tooComplicatedSummary,
    spell "contingency" .tooComplicated tooComplicatedSummary,
    spell "glyph of warding" .tooComplicated tooComplicatedSummary,
    spell "simulacrum" .tooComplicated tooComplicatedSummary,
    spell "gate" .tooComplicated tooComplicatedSummary,
    (spell "time stop" .tooComplicated tooComplicatedSummary
      |>.forEdition .of2014 |>.noted "1d4+1 rounds"),
    (spell "time stop (2024)" .tooComplicated tooComplicatedSummary
      |>.forEdition .of2024 |>.noted "1d4+1 turns (changed from rounds)"),
    (spell "summon beast" .tooComplicated tooComplicatedSummary
      |>.forEdition .of2024 |>.noted "2024 standardized summoning spell"),
    (spell "counterspell (2024)" .tooComplicated tooComplicatedSummary
      |>.forEdition .of2024 |>.noted "Different DC calculation in 2024"),
    (spell "healing spirit (2024)" .tooComplicated tooComplicatedSummary
      |>.forEdition .of2024 |>.noted "Nerfed heavily in 2024"),
    spell "symbol" (.conditionalDamage none none) conditionalSummary,
    spell "meld into stone" (.conditionalDamage none none) conditionalSummary,
    spell "geas" (.conditionalDamage none none) conditionalSummary,
    (spell "spiritual weapon" .reusable reusableSummary
      |>.forEdition .of2014 |>.noted "Bonus action to summon, separate action to attack"),
    (spell "spiritual weapon (2024)" .reusable reusableSummary
      |>.forEdition .of2024 |>.noted "Bonus action to summon AND attack on same turn"),
    spell "mage armor" .reusable reusableSummary,
    spell "shield" .reusable reusableSummary,
    (spell "detect magic" .reusable reusableSummary
      |>.forEdition .of2014 |>.noted "Standard casting"),
    (spell "detect magic (2024)" .reusable reusableSummary
      |>.forEdition .of2024 |>.noted "Now a ritual spell"),
    (spell "guidance" .reusable reusableSummary
      |>.forEdition .of2014 |>.noted "Action, must be used before roll"),
    (spell "guidance (2024)" .reusable reusableSummary
      |>.forEdition .of2024 |>.noted "Reaction, can be used after the roll"),
    spell "resistance" .reusable reusableSummary,
    spell "light" .reusable reusableSummary,
    spell "fire bolt" .reusable reusableSummary,
    spell "ray of frost" .reusable reusableSummary,
    spell "toll the dead" .reusable reusableSummary,
    spell "sacred flame" .reusable reusableSummary,
    spell "eldritch blast" .reusable reusableSummary,
    (spell "true strike" .reusable reusableSummary
      |>.forEdition .of2014 |>.noted "Advantage on next attack roll"),
    (spell "true strike (2024)" .reusable reusableSummary
      |>.forEdition .of2024 |>.noted "Advantage on next attack within same turn + extra damage"),
    (spell "arcane vigor" .reusable reusableSummary
      |>.forEdition .of2024 |>.noted "New 2024 cantrip - grants temporary HP"),
    (spell "hunter's mark (2024)" .reusable reusableSummary
      |>.forEdition .of2024 |>.noted "Now a spell known for free, concentration changes"),
    (spell "hex (2024)" .reusable reusableSummary
      |>.forEdition .of2024 |>.noted "Similar to Hunter's Mark changes") ]

def classFeatures : List Rule :=
  [ classFeature "rage" (.resourceTracking "rage_points" "barbarian_level")
      "Ends if no attack or damage since last turn",
    classFeature "reckless attack" .advantageDisadvantage
      "Advantage on attacks, disadvantage on attacks against you",
    classFeature "danger sense" (.conditionalAdvantage false "can_see_dex_save_source")
      "Advantage on Dex saves if you can see the source",
    classFeature "retaliation" (.reaction false "when_damaged_within_5ft")
      "Reaction melee attack when damaged within 5ft",
    classFeature "action surge" (.bonusAction .any) "Take one additional action on your turn",
    classFeature "second wind" (.descriptive .healing) "Bonus action to regain HP",
    classFeature "indomitable" (.saveReroll "failed_save") "Reroll a failed save",
    classFeature "riposte" (.reaction false "when_melee_attack_misses_you")
      "Reaction attack when melee attack misses you",
    classFeature "sneak attack" (.conditionalDamage (some "advantage_or_ally_within_5ft") (some "sneak_attack_dice"))
      "Extra damage with advantage or ally adjacent",
    classFeature "cunning action" (.bonusAction .any) "Dash/Disengage/Hide as bonus action",
    classFeature "uncanny dodge" (.reaction false "when_hit_by_attack_you_can_see")
      "Reaction to halve damage when hit",
    classFeature "evasion" (.descriptive .saveModifier)
      "Dex save: no damage on success, half on failure",
    classFeature "slippery mind" (.saveReroll "failed_wisdom_save")
      "Reaction to succeed on failed Wis save",
    classFeature "patient defense" (.bonusAction .any) "Bonus action: Dodge for 1 ki",
    classFeature "step of the wind" (.bonusAction .any)
      "Bonus action: Disengage/Dash + double jump distance",
    classFeature "deflect missiles" (.reaction false "when_hit_by_ranged_weapon")
      "Reduce ranged damage, can throw back for 1 ki",
    classFeature "diamond soul" (.saveReroll "failed_save") "Reroll failed save for 1 ki",
    classFeature "purity of body" (.descriptive .immunity) "Immune to poison and disease",
    classFeature "divine smite" (.resourceDamage "spell_slot" (some "2d8 + 1d8_per_spell_level_above_1st") (some "radiant"))
      "Expend spell slot for extra radiant damage",
    classFeature "lay on hands" (.descriptive .healingPool) "Heal from pool (5 × level total)",
    classFeature "aura of protection" (.descriptive .saveBonus)
      "Allies within 10ft add Cha mod to saves",
    classFeature "colossus slayer" (.conditionalDamage (some "hit_creature_below_max_hp") (some "1d8"))
      "Extra 1d8 damage vs creatures below max HP",
    classFeature "multiattack defense" (.descriptive .defenseBonus)
      "+4 AC against subsequent attacks from same attacker",
    classFeature "channel divinity" (.descriptive .resourceFeature)
      "Domain-specific abilities (uses reset on short rest)",
    classFeature "divine intervention" .utility "Deity intervention on successful d100 roll",
    classFeature "arcane recovery" (.descriptive .resourceRecovery)
      "Recover spell slots during short rest",
    classFeature "portent" (.descriptive .rollReplacement) "Replace roll with portent die",
    classFeature "font of magic" (.descriptive .resourceRecovery)
      "Regain half sorcery points on short rest",
    classFeature "bardic inspiration" (.descriptive .resourceDie)
      "Give d6/d8/d10/d12 to add to rolls",
    classFeature "jack of all trades" (.skillBonus [] (some "non_proficient_ability_checks"))
      "Add half prof bonus to non-proficient checks",
    classFeature "wild shape" (.descriptive .transformation)
      "Transform into beast, revert with previous HP at 0 HP" ]

def racialFeatures : List Rule :=
  [ racial "lucky" (.descriptive .reroll)
      "Reroll 1s on attacks/saves/checks (self or ally within 30ft)",
    (racial "lucky (2024)" (.descriptive .advantage) "Now gives advantage instead of rerolls"
      |>.forEdition .of2024),
    racial "brave" (.saveAdvantage [] (some "save_against_frightened"))
      "Advantage on saves against being frightened",
    racial "gnome cunning" (.saveAdvantage ["intelligence", "wisdom", "charisma"] none)
      "Advantage on Int/Wis/Cha saves",
    racial "stonecunning" (.skillBonus [] (some "intelligence_check_recall_information_about_stonework"))
      "Double prof bonus on stonework history checks",
    racial "cat's talent" (.skillBonus ["stealth", "perception"] none)
      "Double prof bonus in Stealth and Perception",
    racial "breath weapon" (.areaDamage none none) "Cone/line damage, Dex save for half",
    racial "damage resistance" (.damageResistance ["chosen_draconic_ancestry"])
      "Resistance to chosen damage type",
    racial "hellish resistance" (.damageResistance ["fire"]) "Fire resistance",
    racial "innate spellcasting" (.innateMagic ["thaumaturgy", "hellish_rebuke", "darkness"])
      "Innate ability to cast Thaumaturgy, Hellish Rebuke, Darkness",
    racial "fey magic" (.innateMagic ["druidcraft", "charm_person"])
      "Innate Druidcraft + Charm Person",
    racial "healing hands" (.descriptive .healing)
      "Heal HP equal to your level (once per long rest)",
    racial "relentless endurance" (.descriptive .deathPrevention)
      "Drop to 1 HP instead of 0 (once per long rest)",
    racial "bite" (.naturalWeapon "1d4" "piercing") "Natural bite attack",
    racial "cat's claws" (.naturalWeapon "1d4" "slashing") "Natural claw attacks (unarmed)",
    racial "limited telepathy" (.telepathy "30_feet")
      "30ft telepathy with creatures that know a language",
    racial "flight" (.flight "walking_speed" (some "medium_armor_only"))
      "Fly at walking speed (medium armor only)",
    racial "wings of the raven" (.flight "30_feet" (some "no_heavy_armor"))
      "30ft fly speed (no heavy armor)",
    racial "tortle natural armor" (.descriptive .defenseBonus) "Natural armor AC 17" ]

def maneuvers : List Rule :=
  [ maneuver "grapple" (.contestCheck "athletics" "athletics_or_acrobatics")
      "Athletics vs Athletics/Acrobatics to grapple target",
    maneuver "shove" (.contestCheck "athletics" "athletics_or_acrobatics")
      "Athletics vs Athletics/Acrobatics to shove prone or push 5ft",
    maneuver "disarm" (.contestCheck "attack_roll" "athletics_or_acrobatics")
      "Attack roll vs Athletics/Acrobatics to disarm target",
    maneuver "opportunity attack" (.reaction false "when_creature_leaves_your_reach")
      "Reaction attack when creature leaves your reach",
    maneuver "dodge" (.effectList false ["attacks_against_you_have_disadvantage", "dex_saves_advantage"])
      "Disadvantage on attacks vs you + advantage on Dex saves",
    maneuver "flanking" (.conditionalAdvantage true "ally_opposite_side_of_enemy")
      "Advantage on melee attacks when flanking with ally",
    maneuver "help" (.descriptive .advantageGrant) "Give ally advantage on next check/attack",
    maneuver "two-weapon fighting" (.bonusAction .attack)
      "Bonus action attack with offhand light weapon (no mod to damage)",
    maneuver "underwater combat" (.effectList true ["ranged_weapon_attacks_have_disadvantage", "melee_weapon_attacks_with_thrown_weapons_have_disadvantage"])
      "Underwater combat penalties",
    maneuver "brace" (.reaction true "reaction")
      "Reaction attack when creature moves into reach",
    maneuver "commander's strike" (.ally .reaction "ally_reaction_attack")
      "Forgo attack to give ally reaction attack",
    maneuver "disarming attack" (.attackWithDebuff (some "strength") (some "drops_one_item") none)
      "Hit + Str save or target drops item",
    maneuver "distracting strike" (.attackWithDebuff none none (some "next_attack_disadvantage"))
      "Hit - next attack vs target has disadvantage",
    maneuver "goading attack" (.attackWithDebuff (some "wisdom") (some "disadvantage_on_attacks_against_others") none)
      "Hit - Wis save or target has disadvantage on attacks vs others",
    maneuver "evasive footwork" (.bonusAction .defense)
      "Move + add superiority die to AC while moving",
    maneuver "feinting attack" (.bonusAction .setup)
      "Bonus action feint for advantage on next attack",
    maneuver "maneuvering attack" (.ally .movement "ally_reaction_move")
      "Hit - ally can use reaction to move half speed",
    maneuver "rally" (.ally .buff "temp_hp")
      "Bonus action - ally gains temp HP equal to superiority die",
    maneuver "sweeping attack" (.areaDamage (some "hit_creature_with_another_enemy_within_5ft") (some "damage_to_second_creature"))
      "Hit creature - second creature within 5ft takes superiority die damage",
    maneuver "graze" (.descriptive .weaponMastery)
      "Miss still deals damage equal to ability mod",
    maneuver "topple" (.descriptive .weaponMastery) "Knock prone on failed CON save",
    maneuver "vex" (.descriptive .weaponMastery) "Advantage on next attack vs same target",
    (maneuver "alert (2024)" (.descriptive .initiativeBonus)
      "+Initiative equal to proficiency, cannot be surprised" |>.forEdition .of2024),
    (maneuver "great weapon master (2024)" (.descriptive .attackOption) "Redesigned completely"
      |>.forEdition .of2024) ]

end HeroSheet.Rule
