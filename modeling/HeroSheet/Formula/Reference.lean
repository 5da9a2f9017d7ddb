import HeroSheet.Sheet.Character
import HeroSheet.Text.Search

namespace HeroSheet

/-- The part of the spell save difficulty that is the same for everyone. -/
def spellSaveBase : Int := 8

/-- The ability that each class casts with, in the order in which classes are looked for. -/
def castingAbilities : List (String × Ability) :=
  [ ("cleric", .wisdom), ("druid", .wisdom), ("ranger", .wisdom),
    ("wizard", .intelligence), ("artificer", .intelligence),
    ("bard", .charisma), ("paladin", .charisma), ("sorcerer", .charisma), ("warlock", .charisma) ]

/-- The ability of the first class that a description mentions. -/
def spellcastingAbility? (className : String) : Option Ability :=
  let description := lowered className
  (castingAbilities.find? fun e => mentions description e.1).map (·.2)

namespace Character

def castingModifier? (c : Character) : Option Int :=
  (spellcastingAbility? c.className).bind c.modifier?

/-- The modifier that a path such as `wisdom.modifier` names. -/
def modifierReference? (c : Character) (path : List Char) : Option Value :=
  let suffix := ".modifier".toList
  if Text.contains suffix path then
    ((Ability.ofName? (String.ofList (Text.removeAll suffix path))).bind c.modifier?).map .int
  else none

def scoreReference? (c : Character) (path : List Char) : Option Value :=
  ((Ability.ofExactName? (String.ofList path)).bind c.score?).map .int

/-- The proficiency bonus, and what spells take from the casting ability. -/
def derivedReference? (c : Character) (path : List Char) : Option Value :=
  let name := String.ofList path
  if name = "proficiencyBonus" then some (.int c.proficiencyBonus)
  else if name = "spellList.abilityMod" ∨ name = "spellList.ability" then
    c.castingModifier?.map .int
  else if name = "spellList.dc" then
    c.castingModifier?.map fun m => .int (spellSaveBase + c.proficiencyBonus + m)
  else if name = "spellList.attackBonus" then
    c.castingModifier?.map fun m => .int (c.proficiencyBonus + m)
  else none

/-- Recognises a point and a small letter, and gives the letter as a capital. -/
def pointedLetter : Text.Recogniser Char := fun _ cs =>
  match cs with
  | '.' :: c :: _ => if c.isLower then some (c.toUpper, 2) else none
  | _ => none

/-- Other spellings of a path: with a capital in place of each point, without the points, only the
last segment, and with underscores. -/
def spellings (path : List Char) : List (List Char) :=
  [ Text.replacePhrases pointedLetter (fun c => [c]) path,
    Text.removeAll ['.'] path,
    Text.afterLast '.' path,
    Text.replaceAll ['.'] ['_'] path ]

/-- The value of a variable under another spelling; texts do not count. -/
def spelledReference? (c : Character) (path : List Char) : Option Value :=
  (spellings path).findSome? fun name =>
    ((c.heldVariable? (String.ofList name)).filter fun v => !v.isText).map (·.toValue)

/-- The value of a path: ability modifiers and scores, derived values, the variable itself, and last
the variable under another spelling. A `#` in front does not matter. -/
def valueOf? (c : Character) (path : List Char) : Option Value :=
  let clean := match path with
    | '#' :: rest => rest
    | _ => path
  (c.modifierReference? clean).or <|
    (c.scoreReference? clean).or <|
      (c.derivedReference? clean).or <|
        (c.bagValue? (String.ofList clean)).or (c.spelledReference? clean)

/-- The value of a path, if it is a number. -/
def numericValue? (c : Character) (path : List Char) : Option Value :=
  (c.valueOf? path).filter (·.isNumber)

end Character

end HeroSheet
