import HeroSheet.Record.Pairs
import HeroSheet.Sheet.Action
import HeroSheet.Sheet.Character
import HeroSheet.Sheet.Effect

namespace HeroSheet

open Record

def DamageRoll.read : Reader DamageRoll :=
  record ["formula", "damage_type"] fun fields =>
    DamageRoll.mk <$> required fields "formula" nonemptyText
      <*> withDefault fields "damage_type" "" text

def Spell.fieldNames : List String :=
  [ "name", "level", "description", "source", "concentration", "ritual", "attack_roll",
    "damage_rolls", "damage", "damage_type", "items_consumed", "cast_without_slot" ]

def Spell.read : Reader Spell :=
  record Spell.fieldNames fun fields =>
    Spell.mk <$> required fields "name" nonemptyText
      <*> withDefault fields "level" none (optional (integerWithin 0 (some 9)))
      <*> withDefault fields "description" "" text
      <*> withDefault fields "source" "" text
      <*> withDefault fields "concentration" false flag
      <*> withDefault fields "ritual" false flag
      <*> withDefault fields "attack_roll" none (optional text)
      <*> withDefault fields "damage_rolls" [] (list DamageRoll.read)
      <*> withDefault fields "damage" none (optional text)
      <*> withDefault fields "damage_type" "" text
      <*> withDefault fields "items_consumed" [] (list text)
      <*> withDefault fields "cast_without_slot" false flag

def ActionCost.read : Reader ActionCost :=
  record ["stat_name", "variable_name", "quantity"] fun fields =>
    ActionCost.mk <$> withDefault fields "stat_name" "" text
      <*> withDefault fields "variable_name" none (optional text)
      <*> withDefault fields "quantity" 1 (integerFrom 0)

def Action.fieldNames : List String :=
  [ "name", "description", "action_type", "attack_roll", "damage", "damage_type",
    "attributes_consumed" ]

def Action.read : Reader Action :=
  record Action.fieldNames fun fields =>
    Action.mk <$> required fields "name" nonemptyText
      <*> withDefault fields "description" "" text
      <*> withDefault fields "action_type" "action" text
      <*> withDefault fields "attack_roll" none (optional text)
      <*> withDefault fields "damage" none (optional text)
      <*> withDefault fields "damage_type" "" text
      <*> withDefault fields "attributes_consumed" [] (list ActionCost.read)

def ActionOption.read : Reader ActionOption :=
  record ["type", "label", "formula", "icon", "edge_case_note"] fun fields =>
    ActionOption.mk <$> required fields "type" (choice OptionKind.ofName? .notListed)
      <*> required fields "label" nonemptyText
      <*> withDefault fields "formula" none (optional text)
      <*> withDefault fields "icon" "" text
      <*> withDefault fields "edge_case_note" none (optional text)

/-- The refusal of a value that is neither text nor integer nor flag: one issue for each of them. -/
def Modifier.read : Reader Modifier
  | .text s => .valid (.text s)
  | .int n => .valid (.int n)
  | .flag b => .valid (.flag b)
  | d =>
    match integer d with
    | .valid n => .valid (.int n)
    | other =>
      let issues := fun {α : Type} (step : String) (checked : Checked α) =>
        match checked.under step with
        | .refused issues => issues
        | _ => []
      .refused (issues "str" (Record.text d) ++ issues "int" other ++ issues "bool" (Record.flag d))

def Effect.read : Reader Effect :=
  record ["name", "icon", "description", "modifiers", "auto_apply", "kind"] fun fields =>
    Effect.mk <$> required fields "name" nonemptyText
      <*> withDefault fields "icon" "" text
      <*> withDefault fields "description" "" text
      <*> withDefault fields "modifiers" [] (entries text Modifier.read)
      <*> withDefault fields "auto_apply" true flag
      <*> withDefault fields "kind" .buff (choice EffectKind.ofName? .notChoice)

def ResourceChange.read : Reader ResourceChange :=
  record ["kind", "key", "delta"] fun fields =>
    ResourceChange.mk <$> required fields "kind" (choice CounterKind.ofName? .notChoice)
      <*> required fields "key" nonemptyText
      <*> required fields "delta" integer

/-- What is wrong with a resource whose counter is above its maximum. -/
def Resource.broken? (r : Resource) : Option String :=
  if r.max < r.current then
    some ("current (" ++ toString r.current ++ ") exceeds max (" ++ toString r.max ++ ") for " ++
      r.name)
  else none

def Resource.read : Reader Resource := fun d =>
  keeping Resource.broken? <|
    (record ["name", "current", "max", "variable_name"] fun fields =>
      Resource.mk <$> required fields "name" nonemptyText
        <*> required fields "current" (integerFrom 0)
        <*> required fields "max" (integerFrom 0)
        <*> withDefault fields "variable_name" none (optional text)) d

namespace SpellSlots

/-- What is wrong with the counter of a level. -/
def brokenLevel? (slots : SpellSlots) (level : Int) : Option String :=
  let current := slots.available level
  let maximum := slots.maxFor level
  if level < minSlotLevel ∨ maxSlotLevel < level then
    some ("slot level " ++ toString level ++ " outside 1-9")
  else if current < 0 ∨ maximum < current then
    some ("level " ++ toString level ++ " slots " ++ toString current ++ " outside 0-" ++
      toString maximum)
  else none

/-- The number of places over which levels are spread, when there were `places` before: it stays while
three fifths of them suffice, and else it is the least power of two above twice the number of levels. -/
def spread (places levels : Nat) : Nat :=
  if 5 * levels < 3 * (places - 1) then places else power 2 ((2 * levels).log2 + 1)

/-- The levels in the order in which they are checked: by their remainders modulo a number of places that
grows with the number of levels. -/
def checkedLevels (slots : SpellSlots) : List Int :=
  let levels := slots.current.levels ++ slots.maximum.levels
  let places := spread (spread 8 slots.current.length) levels.length
  levels.mergeSort fun a b => a % places ≤ b % places

/-- The first thing that is wrong with slot counters. -/
def broken? (slots : SpellSlots) : Option String :=
  (slots.checkedLevels.findSome? slots.brokenLevel?).or <|
    if slots.pactMax < slots.pactCurrent then
      some ("pact slots " ++ toString slots.pactCurrent ++ " exceed max " ++ toString slots.pactMax)
    else none

def read : Reader SpellSlots := fun d =>
  keeping SpellSlots.broken? <|
    (record ["current", "maximum", "pact_current", "pact_max", "pact_level"] fun fields =>
      SpellSlots.mk <$> withDefault fields "current" [] (entries integer integer)
        <*> withDefault fields "maximum" [] (entries integer integer)
        <*> withDefault fields "pact_current" 0 (integerFrom 0)
        <*> withDefault fields "pact_max" 0 (integerFrom 0)
        <*> withDefault fields "pact_level" none (optional (integerWithin 1 (some 9)))) d

end SpellSlots

def Feature.read : Reader Feature :=
  record ["name", "description"] fun fields =>
    Feature.mk <$> required fields "name" nonemptyText
      <*> withDefault fields "description" "" text

namespace Character

/-- Scores of a character whose record has none. -/
def defaultScores : List (String × Data) := Ability.all.map fun a => (a.name, .int 10)

/-- The most characters of an unreadable score that a message shows. -/
def shownScoreWidth : Nat := 200

/-- What is wrong with the text of a score. -/
def unreadableScore (s : String) : NumeralFault → String
  | .notNumeral =>
    "invalid literal for int() with base 10: " ++
      String.ofList ((quotedString s).toList.take shownScoreWidth)
  | .tooLong digits =>
    "Exceeds the limit (" ++ toString maxIntegerDigits ++
      " digits) for integer string conversion: value has " ++ toString digits ++
      " digits; use sys.set_int_max_str_digits() to increase the limit"

/-- The integer that a recorded score comes to; a fraction is dropped. -/
def scoreValue : Data → Checked Int
  | .int n => .valid n
  | .flag b => .valid (if b then 1 else 0)
  | .real x =>
    match x.truncate? with
    | some n => .valid n
    | none =>
      if x = .nan then .refuse (.rule "cannot convert float NaN to integer") else .stopped .outOfRange
  | .text s =>
    match readInteger s.toList with
    | .ok n => .valid n
    | .error fault => .refuse (.rule (unreadableScore s fault))
  | _ => .stopped .wrongType

/-- The modifier of a score: half of what it has above ten, rounded down. -/
def modifierOf (score : Int) : Int := (score - 10).fdiv 2

/-- Modifiers for the scores that the record has no modifier for. -/
def deriveModifiers (known : List String) :
    List (String × Data) → List (Data × Data) → Checked (List (Data × Data))
  | [], modifiers => .valid modifiers
  | (name, score) :: scores, modifiers =>
    let key := lowered name
    if known.contains key then deriveModifiers known scores modifiers
    else
      (scoreValue score).andThen fun value =>
        deriveModifiers known scores (putPair modifiers (.text key) (.int (modifierOf value)))

/-- Recorded scores as entries; without any, every score is ten. -/
def recordedScores : Option Data → Data
  | none => .fields defaultScores
  | some d => if d.isBlank then .fields defaultScores else d

/-- The name of a key among recorded modifiers, in small letters. -/
def modifierName : Data → String
  | .text s => lowered s
  | key => lowered key.shown

/-- The scores and the modifiers of a record, none of them missing. -/
def completed (fields : List (String × Data)) : Checked (Data × List (Data × Data)) :=
  let scores := recordedScores (Entries.get? fields "ability_scores")
  (recordedPairs (Entries.get? fields "ability_modifiers")).andThen fun modifiers =>
    match scores with
    | .fields entries =>
      (deriveModifiers (modifiers.map fun e => modifierName e.1) entries modifiers).map fun modifiers =>
        (scores, modifiers)
    | _ => .stopped .noEntries

/-- Variables in the order of the record; entries without a value are left out. An issue does not say
which variable it was found in. -/
def readVariables : Reader (List (String × Variable))
  | .fields fields =>
    let kept := fields.filter fun e =>
      match e.2 with
      | .null => false
      | _ => true
    let step := fun (read : Checked (List (String × Variable))) (e : String × Data) =>
      read.andThen fun entries => (Variable.read e.2).map fun v => Entries.put entries e.1 v
    kept.foldl step (.valid [])
  | _ => .refuse .notEntries

def fieldNames : List String :=
  [ "name", "class_name", "level", "ability_scores", "ability_modifiers", "proficiency_bonus",
    "variables", "resources", "spell_slots", "features", "spells", "armor_class" ]

def abilityKey : Reader Ability := choice Ability.ofExactName? .notChoice

/-- A character with the given scores and modifiers. -/
def readCompleted (scores : Data) (modifiers : List (Data × Data)) : Reader Character :=
  record fieldNames fun fields =>
    Character.mk <$> withDefault fields "name" "Character" nonemptyText
      <*> withDefault fields "class_name" "" text
      <*> withDefault fields "level" 1 (integerWithin 1 (some 20))
      <*> (entries abilityKey integer scores).under "ability_scores"
      <*> (pairedEntries abilityKey integer modifiers).under "ability_modifiers"
      <*> withDefault fields "proficiency_bonus" 2 (integerFrom 0)
      <*> withDefault fields "variables" [] readVariables
      <*> withDefault fields "resources" [] (list Resource.read)
      <*> withDefault fields "spell_slots" .empty SpellSlots.read
      <*> withDefault fields "features" [] (list Feature.read)
      <*> withDefault fields "spells" [] (list Spell.read)
      <*> withDefault fields "armor_class" none (optional (integerFrom 0))

def read : Reader Character
  | .fields fields =>
    (completed fields).andThen fun (scores, modifiers) => readCompleted scores modifiers (.fields fields)
  | _ => .refuse .notRecord

end Character

end HeroSheet
