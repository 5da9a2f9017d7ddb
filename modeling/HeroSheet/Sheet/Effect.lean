import HeroSheet.Entries
import HeroSheet.Number.Numeral

namespace HeroSheet

/-- What an effect does to the thing that it touches. -/
inductive Modifier where
  | text (value : String)
  | int (value : Int)
  | flag (value : Bool)
  deriving DecidableEq, Repr

namespace Modifier

/-- Empty text, zero and a flag that is off change nothing. -/
def isEmpty : Modifier → Bool
  | .text s => s.isEmpty
  | .int n => n = 0
  | .flag b => !b

/-- The modifier as a term of a formula or a part of a note. -/
def term : Modifier → String
  | .text s => s
  | .int n => toString n
  | .flag b => if b then "True" else "False"

/-- The modifier may be written: it is no integer with too many digits. -/
def isWritable : Modifier → Bool
  | .int n => HeroSheet.isWritable n
  | _ => true

end Modifier

inductive EffectKind where
  | buff
  | condition
  deriving DecidableEq, Repr

namespace EffectKind

def name : EffectKind → String
  | .buff => "buff"
  | .condition => "condition"

def ofName? (name : String) : Option EffectKind :=
  [EffectKind.buff, .condition].find? fun k => k.name == name

end EffectKind

/-- A buff or a condition. It applies by itself, or is spent when the player chooses it. -/
structure Effect where
  name : String
  icon : String
  description : String
  modifiers : List (String × Modifier)
  autoApply : Bool
  kind : EffectKind
  deriving DecidableEq, Repr

namespace Effect

/-- The recorded modifier for a key, empty or not. -/
def recorded? (effect : Effect) (key : String) : Option Modifier :=
  Entries.get? effect.modifiers key

/-- The modifier for a key, unless it changes nothing. -/
def modifier? (effect : Effect) (key : String) : Option Modifier :=
  (effect.recorded? key).filter fun m => !m.isEmpty

end Effect

end HeroSheet
