import HeroSheet.Text.Blank
import HeroSheet.Text.LowerCase

namespace HeroSheet

inductive Ability where
  | strength
  | dexterity
  | constitution
  | intelligence
  | wisdom
  | charisma
  deriving DecidableEq, Repr

namespace Ability

def all : List Ability := [.strength, .dexterity, .constitution, .intelligence, .wisdom, .charisma]

def name : Ability → String
  | .strength => "strength"
  | .dexterity => "dexterity"
  | .constitution => "constitution"
  | .intelligence => "intelligence"
  | .wisdom => "wisdom"
  | .charisma => "charisma"

def fullName : Ability → String
  | .strength => "Strength"
  | .dexterity => "Dexterity"
  | .constitution => "Constitution"
  | .intelligence => "Intelligence"
  | .wisdom => "Wisdom"
  | .charisma => "Charisma"

def abbreviation : Ability → String
  | .strength => "str"
  | .dexterity => "dex"
  | .constitution => "con"
  | .intelligence => "int"
  | .wisdom => "wis"
  | .charisma => "cha"

/-- The ability with exactly this name. -/
def ofExactName? (name : String) : Option Ability := all.find? fun a => a.name == name

/-- The ability that a full name or an abbreviation means, in any case and with blanks around it. -/
def ofName? (name : String) : Option Ability :=
  let key := String.ofList (Text.lower (Text.trim name.toList))
  all.find? fun a => key == a.name || key == a.abbreviation

end Ability

end HeroSheet
