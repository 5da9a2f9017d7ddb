import HeroSheet.Cast.Payment
import HeroSheet.Sheet.Character
import HeroSheet.Text.Search

namespace HeroSheet

/-- A metamagic option; without a cost of its own it costs what its name says. -/
structure Metamagic where
  name : String
  cost : Option Int
  description : String
  deriving DecidableEq, Repr

namespace Metamagic

/-- The options and their costs; one costs the level of the cast. -/
def costs : List (String × Option Int) :=
  [ ("Careful Spell", some 1), ("Distant Spell", some 1), ("Empowered Spell", some 1),
    ("Extended Spell", some 1), ("Heightened Spell", some 3), ("Quickened Spell", some 2),
    ("Subtle Spell", some 1), ("Twinned Spell", none) ]

/-- The option that a name means, in any case and with blanks around it. -/
def ofName? (name : String) : Option (String × Option Int) :=
  let clean := Text.trim name.toList
  (costs.find? fun e => e.1.toList == clean).or
    (costs.find? fun e => Text.lower e.1.toList == Text.lower clean)

/-- The sorcery points that an option costs at a level; unknown options cost nothing. -/
def costAt (name : String) (level : Int) : Int :=
  match ofName? name with
  | none => 0
  | some (_, none) => max 1 level
  | some (_, some cost) => cost

/-- The option with its cost at a level. -/
def priced (level : Int) (m : Metamagic) : Metamagic :=
  ⟨m.name, some (m.cost.getD (costAt m.name level)), ""⟩

/-- What options cost together. -/
def total (options : List Metamagic) : Int := (options.map fun m => m.cost.getD 0).foldr (· + ·) 0

/-- The options behind the text of a cast. -/
def suffix (used : List Metamagic) : String :=
  if used.isEmpty then ""
  else
    " + " ++ ", ".intercalate (used.map (·.name)) ++ " (" ++ toString (total used) ++ " SP)"

end Metamagic

namespace Character

/-- The metamagic among the features. -/
def availableMetamagic (c : Character) : List Metamagic :=
  c.features.filterMap fun f =>
    (Metamagic.ofName? f.name).map fun (name, cost) => ⟨name, cost, f.description⟩

/-- The resource that counts sorcery points, by its name. -/
def sorceryPoints? (c : Character) : Option Resource :=
  c.resources.find? fun r =>
    let name := String.ofList (Text.trim (Text.lower r.name.toList))
    mentions name "sorcery point" || name == "sorcery points" || name == "sorcery" ||
      mentions name "sorcerer point"

/-- The options with their costs, and the change that pays for them; nothing is paid when none was
chosen. -/
def chargeMetamagic (c : Character) (selected : List Metamagic) (level : Int) :
    Payment (List Metamagic × List ResourceChange) :=
  if selected.isEmpty then .granted ([], [])
  else
    let used := selected.map (Metamagic.priced level)
    let total := Metamagic.total used
    match c.sorceryPoints? with
    | none => .short ⟨"Sorcery Points", total, 0⟩
    | some points =>
      if points.current < total then .short ⟨points.name, total, points.current⟩
      else .granted (used, [⟨.resource, points.key, -total⟩])

end Character

end HeroSheet
