import HeroSheet.Roll.Category
import HeroSheet.Session

namespace HeroSheet

/-- Terms to append to a formula, and notes. -/
structure Contribution where
  terms : String
  notes : List String
  deriving DecidableEq, Repr

namespace Contribution

def none : Contribution := ⟨"", []⟩

def append (a b : Contribution) : Contribution := ⟨a.terms ++ b.terms, a.notes ++ b.notes⟩

instance : Append Contribution := ⟨append⟩

/-- The contributions one after the other. -/
def concat (contributions : List Contribution) : Contribution :=
  contributions.foldl (· ++ ·) none

end Contribution

namespace Effect

/-- The note of an effect. -/
def note (effect : Effect) (text : String) : String :=
  "[" ++ effect.icon ++ " " ++ effect.name ++ ": " ++ text ++ "]"

/-- A modifier of a d20 roll: advantage, disadvantage and failure are notes, all else is a term. -/
def contribute (effect : Effect) (modifier : Modifier) : Contribution :=
  if modifier = .text "advantage" then ⟨"", [effect.note "Advantage"]⟩
  else if modifier = .text "disadvantage" then ⟨"", [effect.note "Disadvantage"]⟩
  else if modifier = .text "fail" then ⟨"", [effect.note "Auto-fail"]⟩
  else ⟨" + " ++ modifier.term, [effect.note modifier.term]⟩

/-- A modifier of damage is always a term. -/
def contributeDamage (effect : Effect) (modifier : Modifier) : Contribution :=
  ⟨" + " ++ modifier.term, [effect.note ("+" ++ modifier.term)]⟩

/-- The modifier for saves, or that for saves of the ability in the label. -/
def saveModifier? (effect : Effect) (loweredLabel : String) : Option Modifier :=
  (effect.modifier? "save").or <|
    (if mentions loweredLabel "strength" then effect.modifier? "strSave" else none).or <|
      if mentions loweredLabel "dexterity" then effect.modifier? "dexSave" else none

/-- The contribution of a modifier to rolls of a category. -/
def contributionIf (effect : Effect) (applies : Bool) (modifier : Option Modifier) : Contribution :=
  match applies, modifier with
  | true, some m => effect.contribute m
  | _, _ => .none

/-- What an effect that applies by itself adds to a roll. -/
def autoContribution (label : String) (effect : Effect) : Contribution :=
  let low := lowered label
  let categories := RollCategories.ofLowered low
  if !effect.autoApply || effect.modifiers.isEmpty then .none
  else
    effect.contributionIf categories.attack (effect.modifier? "attack") ++
    effect.contributionIf categories.save (effect.saveModifier? low) ++
    effect.contributionIf categories.skill (effect.modifier? "skill") ++
    match categories.damage, effect.modifier? "damage" with
    | true, some m => effect.contributeDamage m
    | _, _ => .none

/-- The modifiers that an effect folds into a roll by itself, in their order. -/
def autoModifiers (label : String) (effect : Effect) : List Modifier :=
  let low := lowered label
  let categories := RollCategories.ofLowered low
  let own := fun (applies : Bool) (modifier : Option Modifier) => if applies then modifier.toList else []
  if !effect.autoApply || effect.modifiers.isEmpty then []
  else
    own categories.attack (effect.modifier? "attack") ++ own categories.save (effect.saveModifier? low) ++
      own categories.skill (effect.modifier? "skill") ++ own categories.damage (effect.modifier? "damage")

/-- The player may spend the effect on a roll with this label. -/
def isApplicable (label : String) (effect : Effect) : Bool :=
  let categories := RollCategories.ofLabel label
  !effect.autoApply && !effect.modifiers.isEmpty &&
    ((categories.skill && (effect.modifier? "skill").isSome) ||
     (categories.attack && (effect.modifier? "attack").isSome) ||
     (categories.save && (effect.modifier? "save").isSome) ||
     ("Bardic Inspiration".toList.isPrefixOf effect.name.toList &&
      (categories.skill || categories.attack || categories.save)))

/-- What an effect adds to a roll that it is spent on: one modifier, for skills, attacks or saves. -/
def chosenContribution? (label : String) (effect : Effect) : Option Contribution :=
  let low := lowered label
  let categories := RollCategories.ofLowered low
  let isCheck := categories.skill || abilityKeywords.any (mentions low)
  let pick := fun (applies : Bool) (key : String) =>
    if applies then (effect.modifier? key).map effect.contribute else none
  (pick isCheck "skill").or <| (pick categories.attack "attack").or (pick categories.save "save")

/-- The modifier that an effect adds to a roll that it is spent on. -/
def chosenModifier? (label : String) (effect : Effect) : Option Modifier :=
  let low := lowered label
  let categories := RollCategories.ofLowered low
  let isCheck := categories.skill || abilityKeywords.any (mentions low)
  let pick := fun (applies : Bool) (key : String) => if applies then effect.modifier? key else none
  (pick isCheck "skill").or <| (pick categories.attack "attack").or (pick categories.save "save")

end Effect

namespace Session

/-- What all effects that apply by themselves add to a roll. -/
def autoContribution (s : Session) (label : String) : Contribution :=
  .concat (s.activeEffects.map (Effect.autoContribution label))

/-- The effects that the player may spend on a roll. -/
def applicableEffects (s : Session) (label : String) : List Effect :=
  s.activeEffects.filter (Effect.isApplicable label)

end Session

end HeroSheet
