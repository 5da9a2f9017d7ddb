import HeroSheet.Dice.Library
import HeroSheet.Play
import HeroSheet.Record.Written

namespace HeroSheet

instance : ToData RollRequest :=
  ⟨fun r => .fields
    [ ("label", toData r.label), ("formula", toData r.formula), ("kind", toData r.kind.name),
      ("annotations", toData r.annotations), ("damage_type", toData r.damageType),
      ("display_label", toData r.displayLabel) ]⟩

/-- A session with its effects by name. -/
instance : ToData Session :=
  ⟨fun s => .fields
    [ ("advantage", toData s.advantage.name), ("buffs", toData (s.buffs.map (·.name))),
      ("conditions", toData (s.conditions.map (·.name))),
      ("concentrating_on", toData s.concentratingOn) ]⟩

instance : ToData SlotOffering :=
  ⟨fun o => .fields
    [ ("selection", toData o.selection), ("level", toData o.level), ("current", toData o.current),
      ("maximum", toData o.maximum), ("is_pact", toData o.isPact), ("label", toData o.label),
      ("available", toData o.available) ]⟩

instance : ToData InsufficientResource :=
  ⟨fun s => .fields
    [ ("resource", toData s.resource), ("required", toData s.required),
      ("available", toData s.available), ("message", toData s.message) ]⟩

/-- What was paid for as it is, a shortfall under a name of its own. -/
instance {α : Type} [ToData α] : ToData (Payment α) :=
  ⟨fun
    | .granted value => toData value
    | .short shortfall => .fields [("insufficient", toData shortfall)]⟩

instance : ToData CastEffect :=
  ⟨fun e => .fields
    [ ("type", toData e.kind.name), ("spell", toData e.spell), ("min_level", toData e.minLevel),
      ("description", toData e.description) ]⟩

instance : ToData SlotUsage :=
  ⟨fun u => .fields
    [ ("level", toData u.level), ("key", toData u.key), ("is_pact", toData u.isPact),
      ("label", toData u.label) ]⟩

instance : ToData Metamagic :=
  ⟨fun m => .fields
    [("name", toData m.name), ("cost", toData m.cost), ("description", toData m.description)]⟩

instance : ToData CastResolution :=
  ⟨fun r => .fields
    [ ("text", toData r.text), ("rolls", toData r.rolls), ("effects", toData r.effects),
      ("slot_used", toData r.slotUsed), ("metamagic_used", toData r.metamagicUsed),
      ("is_cantrip", toData r.isCantrip), ("is_freecast", toData r.isFreeCast),
      ("resource_changes", toData r.changes), ("phase", toData r.phase.name),
      ("needs_slot_selection", toData r.needsSlotSelection) ]⟩

instance : ToData RuleApplication :=
  ⟨fun a => .fields
    [("options", toData a.options), ("skip_normal_buttons", toData a.skipButtons)]⟩

instance : ToData ActionResolution :=
  ⟨fun r => .fields
    [ ("text", toData r.text), ("rolls", toData r.rolls), ("description", toData r.description),
      ("edge_case", toData r.edgeCase) ]⟩

instance : ToData DeclaredCost :=
  ⟨fun c => .fields
    [ ("name", toData c.name), ("variable_name", toData c.variableName),
      ("quantity", toData c.quantity) ]⟩

/-- The fields that a rule has for its shape. -/
def RuleShape.ownFields : RuleShape → List (String × Data)
  | .conditionalDamage condition formula =>
    [("condition", toData condition), ("damage_formula", toData formula)]
  | .resourceTracking resource maxResource =>
    [("resource", toData resource), ("max_resource", toData maxResource)]
  | .conditionalAdvantage _ condition => [("condition", toData condition)]
  | .reaction _ timing => [("timing", toData timing)]
  | .saveReroll trigger => [("trigger", toData trigger)]
  | .resourceDamage resource formula damageType =>
    [ ("resource", toData resource), ("damage_formula", toData formula),
      ("damage_type", toData damageType) ]
  | .innateMagic spells => [("spells", toData spells)]
  | .damageResistance types => [("damage_types", toData types)]
  | .saveAdvantage saves condition =>
    [("save_types", toData saves), ("condition", toData condition)]
  | .flight speed limitation => [("speed", toData speed), ("limitation", toData limitation)]
  | .naturalWeapon formula damageType =>
    [("damage_formula", toData formula), ("damage_type", toData damageType)]
  | .telepathy range => [("range", toData range)]
  | .skillBonus skills condition => [("skills", toData skills), ("condition", toData condition)]
  | .contestCheck attack defense =>
    [("attack_type", toData attack), ("defense_type", toData defense)]
  | .attackWithDebuff saveType saveFailure effect =>
    [ ("save_type", toData saveType), ("save_failure", toData saveFailure),
      ("effect", toData effect) ]
  | .ally _ effect => [("effect", toData effect)]
  | .areaDamage condition effect => [("condition", toData condition), ("effect", toData effect)]
  | .effectList _ effects => [("effects", toData effects)]
  | _ => []

instance : ToData Rule :=
  ⟨fun r => .fields
    ([ ("name", toData r.name), ("category", toData r.category.name),
      ("description", toData r.description), ("ruleset", toData (r.edition.map Edition.name)),
      ("notes", toData r.notes), ("type", toData r.shape.typeName) ] ++ r.shape.ownFields)⟩

instance : ToData Dice.Outcome :=
  ⟨fun o => .fields
    [ ("expression", toData o.expression), ("total", toData o.total), ("dice", toData o.dice),
      ("is_critical", toData o.isCritical), ("is_fumble", toData o.isFumble),
      ("breakdown", toData o.breakdown), ("label", toData o.label) ]⟩

/-- The answer to a move; slots are offered as rows of selection, count, maximum and whether one is
left. -/
instance : ToData Reply :=
  ⟨fun
    | .nothing => .null
    | .text s => toData s
    | .maybeText s => toData s
    | .flag b => toData b
    | .number n => toData n
    | .numbers ns => toData ns
    | .effects names => toData names
    | .state a => toData a.name
    | .request r => toData r
    | .offerings os => .list (os.map fun o =>
        .list [toData o.selection, toData o.current, toData o.maximum, toData o.available])
    | .cast result => toData result
    | .plan result => toData result
    | .use r => toData r⟩

end HeroSheet
