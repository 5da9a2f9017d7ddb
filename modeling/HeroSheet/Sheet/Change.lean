import HeroSheet.Sheet.Character

/-!
Changes to the counters of a character. A batch of changes is applied as a whole or not at all; a
change that would take a counter below zero or above its maximum is refused, never cut short.
-/

namespace HeroSheet

/-- The name of the counter of a slot level. -/
def slotCounterName (level : Int) : String := "level" ++ toString level ++ "SpellSlots"

/-- The name of the counter of pact slots. -/
def pactCounterName : String := "pactMagicSlots"

/-- Why a batch of changes is refused. -/
inductive ChangeFault where
  | unknownSlot (key : String)
  | unknownResource (key : String) (delta : Int)
  | outOfBounds (key : String) (current maximum delta : Int)
  deriving DecidableEq, Repr

def ChangeFault.report : ChangeFault → Report
  | .unknownSlot key =>
    .about .resourceInvariant ("Unknown spell slot counter " ++ quotedString key)
      [("resource", .text key)] []
  | .unknownResource key delta =>
    .about .resourceInvariant ("Unknown resource " ++ quotedString key)
      [("resource", .text key), ("delta", .int delta)] []
  | .outOfBounds key current maximum delta =>
    .about .resourceInvariant
      ("Change would move " ++ key ++ " outside 0.." ++ toString maximum)
      [ ("resource", .text key), ("current", .int current), ("maximum", .int maximum),
        ("delta", .int delta) ] []

/-- The integers that the report of a refusal writes. -/
def ChangeFault.integers : ChangeFault → List Int
  | .unknownSlot _ => []
  | .unknownResource _ delta => [delta]
  | .outOfBounds _ current maximum delta => [current, maximum, delta]

/-- Why a batch of changes stops: it is refused, or an integer has too many digits to be written. -/
inductive ChangeStop where
  | refused (fault : ChangeFault)
  | tooLong
  deriving DecidableEq, Repr

/-- What a refusal comes to when its report is written. -/
def ChangeFault.told (fault : ChangeFault) : ChangeStop :=
  if fault.integers.all isWritable then .refused fault else .tooLong

/-- The counters of a character; resources with one key share one counter. -/
structure Counters where
  slots : LevelCounts
  pact : Int
  resources : List (String × Int)
  deriving DecidableEq

namespace Counters

/-- The counter under a resource key. -/
def resource? (counters : Counters) (key : String) : Option Int :=
  Entries.get? counters.resources key

end Counters

namespace Character

/-- The slot level whose counter has this name. -/
def slotLevelOf? (key : String) : Option Int :=
  slotLevels.find? fun level => key == slotCounterName level

/-- The counters as they stand; of resources with one key the last one counts. -/
def counters (c : Character) : Counters :=
  ⟨c.spellSlots.current, c.spellSlots.pactCurrent,
    c.resources.foldl (fun entries r => Entries.put entries r.key r.current) []⟩

/-- A counter after a change, if it stays within bounds. -/
def changed (change : ResourceChange) (current maximum : Int) : Except ChangeFault Int :=
  let value := current + change.delta
  if value < 0 ∨ maximum < value then
    .error (.outOfBounds change.key current maximum change.delta)
  else .ok value

/-- The counters of a character after one change. -/
def changeCounters (c : Character) (counters : Counters) (change : ResourceChange) :
    Except ChangeFault Counters :=
  match change.kind with
  | .spellSlot =>
    match slotLevelOf? change.key with
    | none => .error (.unknownSlot change.key)
    | some level => do
      let value ← changed change (counters.slots.get level) (c.spellSlots.maxFor level)
      .ok { counters with slots := counters.slots.set level value }
  | .pactSlot => do
    let value ← changed change counters.pact c.spellSlots.pactMax
    .ok { counters with pact := value }
  | .resource =>
    match c.findResource? change.key with
    | none => .error (.unknownResource change.key change.delta)
    | some resource => do
      let current := (counters.resource? resource.key).getD resource.current
      let value ← changed change current resource.max
      .ok { counters with resources := Entries.put counters.resources resource.key value }

/-- The character with other counters. -/
def withCounters (c : Character) (counters : Counters) : Character :=
  { c with
    spellSlots := { c.spellSlots with current := counters.slots, pactCurrent := counters.pact }
    resources := c.resources.map fun r =>
      { r with current := (counters.resource? r.key).getD r.current } }

/-- The character after a batch of changes, or the fault of the first change that is refused. -/
def withChanges (c : Character) (changes : List ResourceChange) : Except ChangeFault Character := do
  let counters ← changes.foldlM c.changeCounters c.counters
  .ok (c.withCounters counters)

/-- The character after a batch of changes, or what the first refusal comes to when it is told. -/
def takeChanges (c : Character) (changes : List ResourceChange) : Except ChangeStop Character :=
  (c.withChanges changes).mapError ChangeFault.told

/-- The character after a batch of changes that is written down, each change with its delta. -/
def applyChanges (c : Character) (changes : List ResourceChange) : Except ChangeStop Character := do
  let after ← c.takeChanges changes
  if changes.all fun change => isWritable change.delta then .ok after else .error .tooLong

end Character

end HeroSheet
