import HeroSheet.Sheet.EffectCatalog
import HeroSheet.Report

namespace HeroSheet

inductive Advantage where
  | normal
  | advantage
  | disadvantage
  deriving DecidableEq, Repr

namespace Advantage

def name : Advantage → String
  | .normal => "normal"
  | .advantage => "advantage"
  | .disadvantage => "disadvantage"

def ofName? (name : String) : Option Advantage :=
  [Advantage.normal, .advantage, .disadvantage].find? fun a => a.name == name

end Advantage

/-- An effect that the catalog or the session does not have. -/
structure UnknownEffect where
  summary : String
  name : String
  deriving DecidableEq, Repr

def UnknownEffect.report (fault : UnknownEffect) : Report :=
  .about .unknownEffect fault.summary [("effect_name", .text fault.name)] []

structure Session where
  advantage : Advantage
  buffs : List Effect
  conditions : List Effect
  concentratingOn : Option String
  deriving DecidableEq, Repr

namespace Session

def empty : Session := ⟨.normal, [], [], none⟩

/-- Buffs and then conditions, each in the order in which they were activated. -/
def activeEffects (s : Session) : List Effect := s.buffs ++ s.conditions

def isActive (s : Session) (name : String) : Bool := s.activeEffects.any fun e => e.name == name

/-- The list that effects of a kind are kept in. -/
def effectsOf (s : Session) : EffectKind → List Effect
  | .buff => s.buffs
  | .condition => s.conditions

/-- The active effect of the same kind and name. -/
def existing? (s : Session) (effect : Effect) : Option Effect :=
  (s.effectsOf effect.kind).find? fun e => e.name == effect.name

/-- Activates an effect and gives the active one: one of the same kind and name stays as it is. -/
def addEffect (s : Session) (effect : Effect) : Effect × Session :=
  match s.existing? effect with
  | some present => (present, s)
  | none =>
    match effect.kind with
    | .buff => (effect, { s with buffs := s.buffs ++ [effect] })
    | .condition => (effect, { s with conditions := s.conditions ++ [effect] })

/-- The effect of the catalog with a name. -/
def catalogEffect (name : String) : Except UnknownEffect Effect :=
  match Effect.ofName? name with
  | some effect => .ok effect
  | none => .error ⟨"No effect named " ++ quotedString name, name⟩

/-- Activates an effect of the catalog. -/
def addNamed (s : Session) (name : String) : Except UnknownEffect (Effect × Session) :=
  (catalogEffect name).map s.addEffect

/-- The first effect with a name, and the list without it. -/
def takeNamed? (name : String) : List Effect → Option (Effect × List Effect)
  | [] => none
  | e :: es =>
    if e.name == name then some (e, es)
    else (takeNamed? name es).map fun (found, rest) => (found, e :: rest)

/-- Ends the first effect with a name; buffs are searched before conditions. -/
def removeEffect (s : Session) (name : String) : Option Effect × Session :=
  match takeNamed? name s.buffs with
  | some (e, rest) => (some e, { s with buffs := rest })
  | none =>
    match takeNamed? name s.conditions with
    | some (e, rest) => (some e, { s with conditions := rest })
    | none => (none, s)

/-- Gives the advantage of the next roll and resets it. -/
def consumeAdvantage (s : Session) : Advantage × Session :=
  (s.advantage, { s with advantage := .normal })

/-- Concentrates on a spell, or on none; gives the other spell that this breaks off. -/
def concentrate (s : Session) (spell : Option String) : Option String × Session :=
  (if s.concentratingOn = spell then none else s.concentratingOn, { s with concentratingOn := spell })

/-- Stops concentrating; gives the spell that was concentrated on. -/
def dropConcentration (s : Session) : Option String × Session :=
  (s.concentratingOn, { s with concentratingOn := none })

/-- The armor class of a character whose record has none. -/
def defaultArmorClass : Int := 10

/-- The number that an effect adds to the armor class. -/
def armorBonus (effect : Effect) : Int :=
  match effect.recorded? "ac" with
  | some (.int n) => if effect.autoApply then n else 0
  | _ => 0

/-- The armor class with the bonuses of the effects that apply by themselves. -/
def totalArmorClass (s : Session) (base : Option Int) : Int :=
  let start := match base with
    | some n => if n = 0 then defaultArmorClass else n
    | none => defaultArmorClass
  s.activeEffects.foldl (fun total e => total + armorBonus e) start

end Session

end HeroSheet
