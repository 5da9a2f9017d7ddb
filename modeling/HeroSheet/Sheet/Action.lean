namespace HeroSheet

/-- A resource that an action says it consumes. -/
structure ActionCost where
  statName : String
  variableName : Option String
  quantity : Int
  deriving DecidableEq, Repr

structure Action where
  name : String
  description : String
  actionType : String
  attackRoll : Option String
  damage : Option String
  damageType : String
  costs : List ActionCost
  deriving DecidableEq, Repr

/-- What a button rolls; `cast` rolls nothing. -/
inductive OptionKind where
  | attack
  | damage
  | healing
  | temporary
  | cast
  deriving DecidableEq, Repr

namespace OptionKind

def all : List OptionKind := [.attack, .damage, .healing, .temporary, .cast]

def name : OptionKind → String
  | .attack => "attack"
  | .damage => "damage"
  | .healing => "healing"
  | .temporary => "temphp"
  | .cast => "cast"

def ofName? (name : String) : Option OptionKind := all.find? fun k => k.name == name

end OptionKind

/-- A button of an action or a spell. -/
structure ActionOption where
  kind : OptionKind
  label : String
  formula : Option String
  icon : String
  note : Option String
  deriving DecidableEq, Repr

end HeroSheet
