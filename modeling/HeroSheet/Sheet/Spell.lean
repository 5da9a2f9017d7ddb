import HeroSheet.Text.Blank
import HeroSheet.Text.LowerCase

namespace HeroSheet

/-- One damage or healing component of a spell. -/
structure DamageRoll where
  formula : String
  damageType : String
  deriving DecidableEq, Repr

/-- The component heals: its type says so, in any case and with blanks around it. -/
def DamageRoll.isHealing (roll : DamageRoll) : Bool :=
  String.ofList (Text.lower (Text.trim roll.damageType.toList)) == "healing"

structure Spell where
  name : String
  level : Option Int
  description : String
  source : String
  concentration : Bool
  ritual : Bool
  attackRoll : Option String
  damageRolls : List DamageRoll
  damage : Option String
  damageType : String
  itemsConsumed : List String
  castWithoutSlot : Bool
  deriving DecidableEq, Repr

namespace Spell

/-- The level that a slot must have; nothing for a cantrip. -/
def baseLevel (spell : Spell) : Int := spell.level.getD 0

/-- A spell without a level. -/
def isCantrip (spell : Spell) : Bool := spell.baseLevel = 0

end Spell

end HeroSheet
