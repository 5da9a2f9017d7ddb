import HeroSheet.Roll.Prepare

namespace HeroSheet

/-- An attack written like this is none. -/
def noAttackMark : String := "(none)"

namespace Character

/-- A formula of a spell that is cast at a level. -/
def prepareSpellFormula (config : Config) (c : Character) (castLevel : Option Int)
    (formula : String) : Except ConfigurationFault String :=
  match castLevel with
  | none => c.prepareFormula config formula
  | some level =>
    c.prepareFormula config (String.ofList (Formula.substituteSlotLevel level formula.toList))

/-- The roll of one damage formula. -/
def damageRequest (config : Config) (c : Character) (castLevel : Option Int) (spell : Spell)
    (formula damageType : String) : Except ConfigurationFault RollRequest := do
  let damageType := if damageType.isEmpty then "damage" else damageType
  let heals := lowered damageType == "healing"
  let prepared ← c.prepareSpellFormula config castLevel formula
  .ok ⟨spell.name ++ " - " ++ (if heals then "Healing" else damageType), prepared,
    if heals then .healing else .damage, [], some damageType⟩

/-- The attack roll of a spell, if it has one. -/
def attackRequest (config : Config) (c : Character) (castLevel : Option Int) (spell : Spell) :
    Except ConfigurationFault (List RollRequest) :=
  match spell.attackRoll with
  | none => .ok []
  | some formula =>
    if formula.isEmpty || formula == noAttackMark then .ok []
    else
      (c.prepareSpellFormula config castLevel formula).map fun prepared =>
        [⟨spell.name ++ " - Attack", prepared, .attack, [], none⟩]

/-- The damage that a spell declares: its components, or else its single formula. -/
def declaredDamage (spell : Spell) : List DamageRoll :=
  if spell.damageRolls.isEmpty then
    match spell.damage with
    | none => []
    | some formula => if formula.isEmpty then [] else [⟨formula, spell.damageType⟩]
  else spell.damageRolls

/-- The rolls of a spell, its attack first. Without a cast level the slot level stays a word. -/
def spellRolls (config : Config) (c : Character) (castLevel : Option Int) (spell : Spell) :
    Except ConfigurationFault (List RollRequest) := do
  let attack ← c.attackRequest config castLevel spell
  let damage ← (declaredDamage spell).mapM fun roll =>
    c.damageRequest config castLevel spell roll.formula roll.damageType
  .ok (attack ++ damage)

end Character

end HeroSheet
