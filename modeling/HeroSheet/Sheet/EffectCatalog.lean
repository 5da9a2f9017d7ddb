import HeroSheet.Sheet.Effect

namespace HeroSheet.Effect

def buff (name icon description : String) (modifiers : List (String × Modifier)) : Effect :=
  ⟨name, icon, description, modifiers, true, .buff⟩

def condition (name icon description : String) (modifiers : List (String × Modifier)) : Effect :=
  ⟨name, icon, description, modifiers, true, .condition⟩

/-- A buff that the player chooses to spend. -/
def buffOptional (name icon description : String) (modifiers : List (String × Modifier)) : Effect :=
  ⟨name, icon, description, modifiers, false, .buff⟩

/-- A condition that touches a roll only when it is chosen. -/
def conditionOptional (name icon description : String) (modifiers : List (String × Modifier)) :
    Effect :=
  ⟨name, icon, description, modifiers, false, .condition⟩

def buffs : List Effect :=
  [ buff "Bless" "✨" "+1d4 to attack rolls and saving throws"
      [("attack", .text "1d4"), ("save", .text "1d4")],
    buffOptional "Guidance" "🙏" "+1d4 to one ability check" [("skill", .text "1d4")],
    buffOptional "Bardic Inspiration (d6)" "🎵"
      "Bard levels 1-4: +d6 to ability check, attack, or save"
      [("attack", .text "d6"), ("skill", .text "d6"), ("save", .text "d6")],
    buffOptional "Bardic Inspiration (d8)" "🎵"
      "Bard levels 5-9: +d8 to ability check, attack, or save"
      [("attack", .text "d8"), ("skill", .text "d8"), ("save", .text "d8")],
    buffOptional "Bardic Inspiration (d10)" "🎵"
      "Bard levels 10-14: +d10 to ability check, attack, or save"
      [("attack", .text "d10"), ("skill", .text "d10"), ("save", .text "d10")],
    buffOptional "Bardic Inspiration (d12)" "🎵"
      "Bard levels 15-20: +d12 to ability check, attack, or save"
      [("attack", .text "d12"), ("skill", .text "d12"), ("save", .text "d12")],
    buff "Haste" "⚡" "+2 AC, advantage on DEX saves, extra action"
      [("ac", .int 2), ("dexSave", .text "advantage")],
    buff "Enlarge" "⬆️" "+1d4 weapon damage, advantage on STR checks/saves"
      [("damage", .text "1d4"), ("strCheck", .text "advantage"), ("strSave", .text "advantage")],
    buff "Invisibility" "👻" "Advantage on attack rolls, enemies have disadvantage"
      [("attack", .text "advantage")],
    buff "Shield of Faith" "🛡️" "+2 AC" [("ac", .int 2)],
    buff "Heroism" "🦸" "Immune to frightened, temp HP each turn" [("frightened", .text "immune")],
    buffOptional "Enhance Ability" "💪" "Advantage on ability checks with chosen ability"
      [("skill", .text "advantage")],
    buff "Rage" "😡"
      "+2 damage on melee attacks, advantage on STR checks/saves, resistance to physical damage"
      [("damage", .int 2), ("strCheck", .text "advantage"), ("strSave", .text "advantage"), ("physicalResistance", .flag true)],
    buff "Rage (+3)" "😤"
      "Level 9-15: +3 damage on melee attacks, advantage on STR checks/saves, resistance to physical damage"
      [("damage", .int 3), ("strCheck", .text "advantage"), ("strSave", .text "advantage"), ("physicalResistance", .flag true)],
    buff "Rage (+4)" "🔥"
      "Level 16+: +4 damage on melee attacks, advantage on STR checks/saves, resistance to physical damage"
      [("damage", .int 4), ("strCheck", .text "advantage"), ("strSave", .text "advantage"), ("physicalResistance", .flag true)],
    buff "Aid" "❤️" "Max HP increased by 5" [("maxHp", .int 5)],
    buff "True Strike" "🎯" "Advantage on next attack roll" [("attack", .text "advantage")],
    buffOptional "Faerie Fire" "✨" "Attackers have advantage against target" [] ]

def conditions : List Effect :=
  [ condition "Bane" "💀" "-1d4 to attack rolls and saving throws"
      [("attack", .text "-1d4"), ("save", .text "-1d4")],
    condition "Poisoned" "☠️" "Disadvantage on attack rolls and ability checks"
      [("attack", .text "disadvantage"), ("skill", .text "disadvantage")],
    condition "Frightened" "😱" "Disadvantage on ability checks and attack rolls"
      [("attack", .text "disadvantage"), ("skill", .text "disadvantage")],
    condition "Stunned" "💫" "Incapacitated, auto-fail STR/DEX saves, attackers have advantage"
      [("strSave", .text "fail"), ("dexSave", .text "fail")],
    condition "Paralyzed" "🧊"
      "Incapacitated, auto-fail STR/DEX saves, attacks within 5ft are crits"
      [("strSave", .text "fail"), ("dexSave", .text "fail")],
    condition "Restrained" "⛓️" "Disadvantage on DEX saves and attack rolls"
      [("attack", .text "disadvantage"), ("dexSave", .text "disadvantage")],
    condition "Blinded" "🙈" "Auto-fail sight checks, disadvantage on attacks"
      [("attack", .text "disadvantage"), ("perception", .text "disadvantage")],
    condition "Deafened" "🙉" "Auto-fail hearing checks" [("perception", .text "disadvantage")],
    conditionOptional "Charmed" "💖"
      "Cannot attack charmer, charmer has advantage on social checks"
      [],
    condition "Grappled" "🤼" "Speed becomes 0" [("speed", .int 0)],
    condition "Prone" "⬇️"
      "Disadvantage on attack rolls, melee attacks against you have advantage"
      [("attack", .text "disadvantage")],
    conditionOptional "Incapacitated" "😵" "Cannot take actions or reactions" [],
    condition "Unconscious" "😴" "Incapacitated, drop everything, auto-fail STR/DEX saves"
      [("strSave", .text "fail"), ("dexSave", .text "fail")],
    condition "Petrified" "🗿" "Incapacitated, auto-fail STR/DEX saves, resistance to all damage"
      [("strSave", .text "fail"), ("dexSave", .text "fail")],
    condition "Slowed" "🐌" "Speed halved, -2 AC and DEX saves, no reactions"
      [("ac", .int (-2)), ("dexSave", .text "-2")],
    conditionOptional "Hexed" "🔮"
      "Disadvantage on ability checks with chosen ability, extra damage to caster"
      [("skill", .text "disadvantage")],
    condition "Cursed" "😈" "Disadvantage on attacks and saves against caster"
      [("attack", .text "disadvantage"), ("save", .text "disadvantage")] ]

/-- The effect of the catalog with exactly this name. -/
def ofName? (name : String) : Option Effect := (buffs ++ conditions).find? fun e => e.name == name

end HeroSheet.Effect
