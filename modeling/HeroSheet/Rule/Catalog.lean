import HeroSheet.Rule.Name
import HeroSheet.Rule.Record
import HeroSheet.Rule.Tables

/-!
The catalog of rules. A name is looked up in its normal form: first the variant for the edition that
is played, then the name itself, then what stands before its first colon.
-/

namespace HeroSheet

/-- Rules by category, and in it by the normal form of their name. -/
structure RuleCatalog where
  tables : List (RuleCategory × List (String × Rule))

/-- A record of a table that describes no rule, and how many faults it has. -/
structure RuleFault where
  category : RuleCategory
  name : String
  faults : Nat
  deriving DecidableEq, Repr

def RuleFault.report (fault : RuleFault) : Report :=
  .about .configuration ("Invalid " ++ fault.category.name ++ " rule " ++ quotedString fault.name)
    [("config_key", .text ("rules." ++ fault.category.name ++ "." ++ fault.name))]
    [("errors", .int fault.faults)]

/-- A table as it is recorded: fields of rules by their names. -/
abbrev RuleRecords := List (String × List (String × Data))

namespace RuleCatalog

/-- A rule under its key; a key that is there already keeps its place. -/
def insert (table : List (String × Rule)) (rule : Rule) : List (String × Rule) :=
  Entries.put table (ruleKey rule.name) rule

def indexed (rules : List Rule) : List (String × Rule) := rules.foldl insert []

def ofRules (tables : List (RuleCategory × List Rule)) : RuleCatalog :=
  ⟨tables.map fun (category, rules) => (category, indexed rules)⟩

/-- The rules of a table, unless a record describes none. -/
def readTable (category : RuleCategory) (records : RuleRecords) : Except RuleFault (List Rule) :=
  records.mapM fun (name, fields) =>
    match Rule.read category name fields with
    | .valid rule => .ok rule
    | .refused issues => .error ⟨category, name, issues.length⟩
    | .stopped _ => .error ⟨category, name, 1⟩

/-- The catalog of recorded tables. -/
def ofRecords (tables : List (RuleCategory × RuleRecords)) : Except RuleFault RuleCatalog := do
  let read ← tables.mapM fun (category, records) =>
    (readTable category records).map fun rules => (category, rules)
  .ok (ofRules read)

/-- The catalog of the rules that come with the library. -/
def bundled : RuleCatalog :=
  ofRules
    [ (.spell, Rule.spells), (.classFeature, Rule.classFeatures), (.racial, Rule.racialFeatures),
      (.combatManeuver, Rule.maneuvers) ]

/-- The number of rules. -/
def size (catalog : RuleCatalog) : Nat := (catalog.tables.flatMap (·.2)).length

def table (catalog : RuleCatalog) (category : RuleCategory) : List (String × Rule) :=
  (Entries.get? catalog.tables category).getD []

/-- The keys to try for a normal form, in order. -/
def candidates (key : List Char) (edition : Option Edition) : List String :=
  let variant := edition.map fun e => ruleKey (String.ofList key ++ " (" ++ e.name ++ ")")
  let base :=
    if key.contains ':' then [String.ofList (Text.trim (key.takeWhile (· != ':')))] else []
  variant.toList ++ String.ofList key :: base

/-- The rule of a table for a normal form. -/
def lookupIn (catalog : RuleCatalog) (category : RuleCategory) (key : List Char)
    (edition : Option Edition) : Option Rule :=
  (candidates key edition).findSome? fun candidate =>
    Entries.get? (catalog.table category) candidate

/-- The categories to search. -/
def searched : Option RuleCategory → List RuleCategory
  | some category => [category]
  | none => RuleCategory.all

/-- The rule for a name, in one category or in the first category that has one. -/
def lookup (catalog : RuleCatalog) (name : String) (category : Option RuleCategory)
    (edition : Option Edition) : Option Rule :=
  let key := normalizeRuleName name.toList
  if key.isEmpty then none
  else (searched category).findSome? fun category => catalog.lookupIn category key edition

/-- The rule for a name in the first of several categories that has one. -/
def lookupFirst (catalog : RuleCatalog) (name : String) (categories : List RuleCategory)
    (edition : Option Edition) : Option Rule :=
  categories.findSome? fun category => catalog.lookup name (some category) edition

def contains (catalog : RuleCatalog) (name : String) : Bool :=
  (catalog.lookup name none none).isSome

/-- The rules, of one category or of all. -/
def rules (catalog : RuleCatalog) (category : Option RuleCategory) : List Rule :=
  (catalog.tables.filter fun t => category.all (· == t.1)).flatMap fun t => t.2.map (·.2)

def ofType (catalog : RuleCatalog) (typeName : String) (category : Option RuleCategory) :
    List Rule :=
  (catalog.rules category).filter fun rule => rule.shape.typeName == typeName

/-- The types that rules have, each once. -/
def typeNames (catalog : RuleCatalog) (category : Option RuleCategory) : List String :=
  ((catalog.rules category).map fun rule => rule.shape.typeName).eraseDups

/-- A spell that can be cast again without another slot. -/
def isReusable (catalog : RuleCatalog) (name : String) (edition : Option Edition) : Bool :=
  (catalog.lookup name (some .spell) edition).any fun rule => rule.shape == .reusable

/-- A spell that is left to the game master. -/
def isTooComplicated (catalog : RuleCatalog) (name : String) (edition : Option Edition) : Bool :=
  (catalog.lookup name (some .spell) edition).any fun rule => rule.shape == .tooComplicated

end RuleCatalog

end HeroSheet
