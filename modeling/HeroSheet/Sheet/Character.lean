import HeroSheet.Sheet.Ability
import HeroSheet.Sheet.Resource
import HeroSheet.Sheet.Spell
import HeroSheet.Sheet.SpellSlots

namespace HeroSheet

/-- A feature of a class, a race or a feat. -/
structure Feature where
  name : String
  description : String
  deriving DecidableEq, Repr

/-- A character; the bag holds the variables that formulas refer to. -/
structure Character where
  name : String
  className : String
  level : Int
  abilityScores : List (Ability × Int)
  abilityModifiers : List (Ability × Int)
  proficiencyBonus : Int
  bag : List (String × Variable)
  resources : List Resource
  spellSlots : SpellSlots
  features : List Feature
  spells : List Spell
  armorClass : Option Int
  deriving DecidableEq

namespace Character

def score? (c : Character) (ability : Ability) : Option Int :=
  Entries.get? c.abilityScores ability

def modifier? (c : Character) (ability : Ability) : Option Int :=
  Entries.get? c.abilityModifiers ability

def heldVariable? (c : Character) (name : String) : Option Variable :=
  Entries.get? c.bag name

/-- The value of a variable in the bag. -/
def bagValue? (c : Character) (name : String) : Option Value := (c.heldVariable? name).map (·.toValue)

/-- The number that a variable holds. -/
def number? (c : Character) (name : String) : Option Binary64 :=
  (c.heldVariable? name).bind Variable.number?

/-- The resource with this variable name, or else the first with this name in any case. -/
def findResource? (c : Character) (key : String) : Option Resource :=
  (c.resources.find? fun r => r.variableName == some key).or
    (c.resources.find? fun r => lowered r.name == lowered key)

end Character

end HeroSheet
