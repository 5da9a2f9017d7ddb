import HeroSheet.Settings
import HeroSheet.Sheet.Action
import HeroSheet.Sheet.Character
import HeroSheet.Sheet.Effect

namespace HeroSheet

/-- A variable with its kind, numbers in full. -/
instance : ToData Variable :=
  ⟨fun
    | .number x => .fields [("kind", toData "number"), ("value", toData x)]
    | .flag b => .fields [("kind", toData "bool"), ("value", toData b)]
    | .text s => .fields [("kind", toData "text"), ("value", toData s)]⟩

instance : ToData Resource :=
  ⟨fun r => .fields
    [ ("name", toData r.name), ("current", toData r.current), ("max", toData r.max),
      ("variable_name", toData r.variableName) ]⟩

/-- Counts under their levels. -/
def LevelCounts.record (counts : LevelCounts) : Data := recordOf (toString ·) counts

instance : ToData SpellSlots :=
  ⟨fun s => .fields
    [ ("current", s.current.record), ("maximum", s.maximum.record),
      ("pact_current", toData s.pactCurrent), ("pact_max", toData s.pactMax),
      ("pact_level", toData s.pactLevel) ]⟩

instance : ToData ResourceChange :=
  ⟨fun c => .fields
    [("kind", toData c.kind.name), ("key", toData c.key), ("delta", toData c.delta)]⟩

instance : ToData Feature :=
  ⟨fun f => .fields [("name", toData f.name), ("description", toData f.description)]⟩

instance : ToData DamageRoll :=
  ⟨fun r => .fields [("formula", toData r.formula), ("damage_type", toData r.damageType)]⟩

instance : ToData Spell :=
  ⟨fun s => .fields
    [ ("name", toData s.name), ("level", toData s.level), ("description", toData s.description),
      ("source", toData s.source), ("concentration", toData s.concentration),
      ("ritual", toData s.ritual), ("attack_roll", toData s.attackRoll),
      ("damage_rolls", toData s.damageRolls), ("damage", toData s.damage),
      ("damage_type", toData s.damageType), ("items_consumed", toData s.itemsConsumed),
      ("cast_without_slot", toData s.castWithoutSlot) ]⟩

instance : ToData ActionCost :=
  ⟨fun c => .fields
    [ ("stat_name", toData c.statName), ("variable_name", toData c.variableName),
      ("quantity", toData c.quantity) ]⟩

instance : ToData Action :=
  ⟨fun a => .fields
    [ ("name", toData a.name), ("description", toData a.description),
      ("action_type", toData a.actionType), ("attack_roll", toData a.attackRoll),
      ("damage", toData a.damage), ("damage_type", toData a.damageType),
      ("attributes_consumed", toData a.costs) ]⟩

instance : ToData ActionOption :=
  ⟨fun o => .fields
    [ ("type", toData o.kind.name), ("label", toData o.label), ("formula", toData o.formula),
      ("icon", toData o.icon), ("edge_case_note", toData o.note) ]⟩

instance : ToData Modifier :=
  ⟨fun
    | .text s => .text s
    | .int n => .int n
    | .flag b => .flag b⟩

instance : ToData Effect :=
  ⟨fun e => .fields
    [ ("name", toData e.name), ("icon", toData e.icon), ("description", toData e.description),
      ("modifiers", recordOf id e.modifiers), ("auto_apply", toData e.autoApply),
      ("kind", toData e.kind.name) ]⟩

instance : ToData Character :=
  ⟨fun c => .fields
    [ ("name", toData c.name), ("class_name", toData c.className), ("level", toData c.level),
      ("ability_scores", recordOf Ability.name c.abilityScores),
      ("ability_modifiers", recordOf Ability.name c.abilityModifiers),
      ("proficiency_bonus", toData c.proficiencyBonus), ("variables", recordOf id c.bag),
      ("resources", toData c.resources), ("spell_slots", toData c.spellSlots),
      ("features", toData c.features), ("spells", toData c.spells),
      ("armor_class", toData c.armorClass) ]⟩

/-- The counters of a character as a record, resources as rows of name, key, count and maximum. -/
def Character.counterRecord (c : Character) : Data :=
  .fields
    [ ("slots", c.spellSlots.current.record), ("pact", toData c.spellSlots.pactCurrent),
      ("resources", .list (c.resources.map fun r =>
        .list [toData r.name, toData r.key, toData r.current, toData r.max])) ]

instance : ToData Settings :=
  ⟨fun s => .fields
    [ ("debug", toData s.debug),
      ("engine", .fields
        [ ("default_ruleset", toData s.defaultEdition.name),
          ("max_simplify_iterations", toData s.maxSimplifyPasses),
          ("default_pact_level", toData s.defaultPactLevel), ("dice_seed", toData s.diceSeed) ]),
      ("logging", .fields
        [("level", toData s.logLevel.name), ("json_format", toData s.logAsJson)]) ]⟩

end HeroSheet
