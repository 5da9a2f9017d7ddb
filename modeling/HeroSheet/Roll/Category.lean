import HeroSheet.Roll.Request
import HeroSheet.Text.LowerCase
import HeroSheet.Text.Search

namespace HeroSheet

/-- Parts of a label that mark a skill check. -/
def skillKeywords : List String :=
  [ "acrobatics", "animal", "arcana", "athletics", "deception", "history", "insight",
    "intimidation", "investigation", "medicine", "nature", "perception", "performance",
    "persuasion", "religion", "sleight", "stealth", "survival" ]

/-- Parts of a label that mark an ability check. -/
def abilityKeywords : List String :=
  ["strength", "dexterity", "constitution", "intelligence", "wisdom", "charisma"]

/-- The categories of a roll; a label may put it into several. -/
structure RollCategories where
  attack : Bool
  save : Bool
  skill : Bool
  damage : Bool
  deriving DecidableEq, Repr

namespace RollCategories

/-- The categories that a label in small letters names. -/
def ofLowered (label : String) : RollCategories :=
  ⟨ mentions label "attack", mentions label "save",
    mentions label "check" || skillKeywords.any (mentions label), mentions label "damage" ⟩

def ofLabel (label : String) : RollCategories := ofLowered (lowered label)

/-- The names of the categories in alphabetical order. -/
def names (categories : RollCategories) : List String :=
  (if categories.attack then ["attack"] else []) ++
  (if categories.damage then ["damage"] else []) ++
  (if categories.save then ["save"] else []) ++
  (if categories.skill then ["skill"] else [])

end RollCategories

/-- The kind of roll that a label suggests; without any sign it is a check. -/
def RollKind.ofLabel (label : String) : RollKind :=
  let low := lowered label
  let categories := RollCategories.ofLowered low
  if categories.attack then .attack
  else if mentions low "heal" then .healing
  else if mentions low "temp" && mentions low "hp" then .temporary
  else if categories.damage then .damage
  else if categories.save then .save
  else .check

end HeroSheet
