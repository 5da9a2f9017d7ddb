import HeroSheet.Rule.Basic

namespace HeroSheet

open Record

/-- The fields that a type of rule has of its own, and how its shape is read from them. -/
structure ShapeReader where
  fields : List String
  read : List (String × Data) → Checked RuleShape

namespace ShapeReader

def plain (shape : RuleShape) : ShapeReader := ⟨[], fun _ => .valid shape⟩

def maybeText (fields : List (String × Data)) (name : String) : Checked (Option String) :=
  withDefault fields name none (optional text)

def ofType? : String → Option ShapeReader
  | "healing_announcement" => some (plain .healingAnnouncement)
  | "too_complicated" => some (plain .tooComplicated)
  | "reusable" => some (plain .reusable)
  | "conditional_damage" => some ⟨["condition", "damage_formula"], fun fields =>
      RuleShape.conditionalDamage <$> maybeText fields "condition"
        <*> maybeText fields "damage_formula"⟩
  | "utility_dm_discretion" => some (plain .utility)
  | "resource_tracking" => some ⟨["resource", "max_resource"], fun fields =>
      RuleShape.resourceTracking <$> required fields "resource" text
        <*> required fields "max_resource" text⟩
  | "advantage_disadvantage" => some (plain .advantageDisadvantage)
  | "conditional_advantage" => some ⟨["condition"], fun fields =>
      RuleShape.conditionalAdvantage false <$> required fields "condition" text⟩
  | "situational_advantage" => some ⟨["condition"], fun fields =>
      RuleShape.conditionalAdvantage true <$> required fields "condition" text⟩
  | "reaction" => some ⟨["timing"], fun fields =>
      RuleShape.reaction false <$> required fields "timing" text⟩
  | "reaction_attack" => some ⟨["timing"], fun fields =>
      RuleShape.reaction true <$> required fields "timing" text⟩
  | "save_reroll" => some ⟨["trigger"], fun fields =>
      RuleShape.saveReroll <$> required fields "trigger" text⟩
  | "bonus_action" => some (plain (.bonusAction .any))
  | "bonus_action_attack" => some (plain (.bonusAction .attack))
  | "bonus_action_defense" => some (plain (.bonusAction .defense))
  | "bonus_action_setup" => some (plain (.bonusAction .setup))
  | "resource_damage" => some ⟨["resource", "damage_formula", "damage_type"], fun fields =>
      RuleShape.resourceDamage <$> required fields "resource" text
        <*> maybeText fields "damage_formula" <*> maybeText fields "damage_type"⟩
  | "innate_magic" => some ⟨["spells"], fun fields =>
      RuleShape.innateMagic <$> required fields "spells" (list text)⟩
  | "damage_resistance" => some ⟨["damage_types"], fun fields =>
      RuleShape.damageResistance <$> required fields "damage_types" (list text)⟩
  | "save_advantage" => some ⟨["save_types", "condition"], fun fields =>
      RuleShape.saveAdvantage <$> withDefault fields "save_types" [] (list text)
        <*> maybeText fields "condition"⟩
  | "flight" => some ⟨["speed", "limitation"], fun fields =>
      RuleShape.flight <$> required fields "speed" text <*> maybeText fields "limitation"⟩
  | "natural_weapon" => some ⟨["damage_formula", "damage_type"], fun fields =>
      RuleShape.naturalWeapon <$> required fields "damage_formula" text
        <*> required fields "damage_type" text⟩
  | "telepathy" => some ⟨["range"], fun fields =>
      RuleShape.telepathy <$> required fields "range" text⟩
  | "skill_bonus" => some ⟨["skills", "condition"], fun fields =>
      RuleShape.skillBonus <$> withDefault fields "skills" [] (list text)
        <*> maybeText fields "condition"⟩
  | "contest_check" => some ⟨["attack_type", "defense_type"], fun fields =>
      RuleShape.contestCheck <$> required fields "attack_type" text
        <*> required fields "defense_type" text⟩
  | "attack_with_debuff" => some ⟨["save_type", "save_failure", "effect"], fun fields =>
      RuleShape.attackWithDebuff <$> maybeText fields "save_type"
        <*> maybeText fields "save_failure" <*> maybeText fields "effect"⟩
  | "ally_reaction" => some ⟨["effect"], fun fields =>
      RuleShape.ally .reaction <$> required fields "effect" text⟩
  | "ally_movement" => some ⟨["effect"], fun fields =>
      RuleShape.ally .movement <$> required fields "effect" text⟩
  | "ally_buff" => some ⟨["effect"], fun fields =>
      RuleShape.ally .buff <$> required fields "effect" text⟩
  | "area_damage" => some ⟨["condition", "effect"], fun fields =>
      RuleShape.areaDamage <$> maybeText fields "condition" <*> maybeText fields "effect"⟩
  | "defensive_action" => some ⟨["effects"], fun fields =>
      RuleShape.effectList false <$> required fields "effects" (list text)⟩
  | "environmental_modifier" => some ⟨["effects"], fun fields =>
      RuleShape.effectList true <$> required fields "effects" (list text)⟩
  | name => (Topic.all.find? fun t => t.typeName == name).map fun t => plain (.descriptive t)

end ShapeReader

namespace Rule

/-- The rule that a table records under a name; the type decides which other fields it has. -/
def read (category : RuleCategory) (name : String) (fields : List (String × Data)) :
    Checked Rule :=
  match Entries.get? fields "type" with
  | none => .refuse .shapeMissing
  | some (.text type) =>
    match ShapeReader.ofType? type with
    | none => .refuse .unknownShape
    | some shape =>
      let known := ["name", "category", "description", "ruleset", "notes", "type"] ++ shape.fields
      let named := Entries.put (Entries.put fields "name" (.text name)) "category" (.text category.name)
      record known
        (fun fields =>
          Rule.mk <$> required fields "name" nonemptyText
            <*> .valid category
            <*> withDefault fields "description" "" text
            <*> withDefault fields "ruleset" none (optional (choice Edition.ofName? .notChoice))
            <*> withDefault fields "notes" none (optional text)
            <*> shape.read fields)
        (.fields named)
  | some _ => .refuse .unknownShape

end Rule

end HeroSheet
