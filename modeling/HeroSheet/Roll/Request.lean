namespace HeroSheet

/-- What a roll is for. -/
inductive RollKind where
  | attack
  | damage
  | healing
  | temporary
  | save
  | check
  deriving DecidableEq, Repr

namespace RollKind

def all : List RollKind := [.attack, .damage, .healing, .temporary, .save, .check]

def name : RollKind → String
  | .attack => "attack"
  | .damage => "damage"
  | .healing => "healing"
  | .temporary => "temphp"
  | .save => "save"
  | .check => "check"

def ofName? (name : String) : Option RollKind := all.find? fun k => k.name == name

end RollKind

/-- A prepared roll. Its annotations are those of effects in the order in which they were found, and
that of advantage last. -/
structure RollRequest where
  label : String
  formula : String
  kind : RollKind
  annotations : List String
  damageType : Option String
  deriving DecidableEq, Repr

/-- The label with the annotations behind it. -/
def RollRequest.displayLabel (request : RollRequest) : String :=
  if request.annotations.isEmpty then request.label
  else request.label ++ " " ++ " ".intercalate request.annotations

end HeroSheet
