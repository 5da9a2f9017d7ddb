import HeroSheet.Cast.Payment
import HeroSheet.Settings
import HeroSheet.Sheet.Change

namespace HeroSheet

/-- The slot that a cast selects, by level or in words. -/
inductive SlotSelection where
  | ofLevel (level : Int)
  | ofText (text : String)
  deriving DecidableEq, Repr

/-- A slot that the player may choose. -/
structure SlotOffering where
  selection : SlotSelection
  level : Int
  current : Int
  maximum : Int
  isPact : Bool
  label : String
  deriving DecidableEq, Repr

def SlotOffering.available (offering : SlotOffering) : Bool := 0 < offering.current

/-- The slot that a cast spends, and the name of its counter. -/
structure SlotUsage where
  level : Int
  key : String
  isPact : Bool
  label : String
  deriving DecidableEq, Repr

/-- Why a slot cannot be selected. -/
inductive SlotFault where
  | unreadable (selection : SlotSelection)
  | outside (level : Int) (selection : SlotSelection)
  | otherPactLevel (pactLevel level : Int)
  | pactLevelOutOfRange
  deriving DecidableEq, Repr

def pactMark : List Char := ['p', 'a', 'c', 't', ':']

namespace SlotSelection

def text : SlotSelection → List Char
  | .ofLevel n => integerText n
  | .ofText s => s.toList

/-- The pact slot of a level. -/
def pact (level : Int) : SlotSelection := .ofText (String.ofList (pactMark ++ integerText level))

/-- The level that is selected, and whether it is a pact slot. -/
def read (selection : SlotSelection) : Except SlotFault (Int × Bool) :=
  let cs := Text.trim selection.text
  let isPact := pactMark.isPrefixOf cs
  match readInteger (if isPact then cs.drop pactMark.length else cs) with
  | .error _ => .error (.unreadable selection)
  | .ok level =>
    if level < minSlotLevel ∨ maxSlotLevel < level then .error (.outside level selection)
    else .ok (level, isPact)

end SlotSelection

instance : ToData SlotSelection :=
  ⟨fun
    | .ofLevel n => .int n
    | .ofText s => .text s⟩

namespace SlotFault

def selectionReport (summary : String) (value : Data) : Report :=
  .about .validation summary
    [("field_name", .text "selected_slot"), ("invalid_value", value)] []

def report : SlotFault → Report
  | .unreadable selection =>
    let value := toData selection
    selectionReport ("Invalid slot selection " ++ value.shown) value
  | .outside level selection =>
    selectionReport
      ("Slot level " ++ toString level ++ " outside " ++ toString minSlotLevel ++ "-" ++
        toString maxSlotLevel)
      (toData selection)
  | .otherPactLevel pactLevel level =>
    selectionReport
      ("Pact slots are cast at level " ++ toString pactLevel ++ ", not " ++ toString level)
      (toData (SlotSelection.pact level))
  | .pactLevelOutOfRange => .about .validation "Pact slot level out of range" [] []

end SlotFault

def slotLabel (level spellLevel : Int) : String :=
  if spellLevel < level then
    "Level " ++ toString level ++ " slot (upcast from " ++ toString spellLevel ++ ")"
  else "Level " ++ toString level ++ " slot"

def pactLabel (level : Int) : String := "Pact Magic (level " ++ toString level ++ ")"

/-- The use of a pact slot. -/
def SlotUsage.pact (level : Int) : SlotUsage := ⟨level, pactCounterName, true, pactLabel level⟩

/-- The use of an ordinary slot for a spell. -/
def SlotUsage.ordinary (level spellLevel : Int) : SlotUsage :=
  ⟨level, slotCounterName level, false, slotLabel level spellLevel⟩

/-- A slot with one left, if its level is high enough. -/
def SlotUsage.payment (usage : SlotUsage) (spellLevel available : Int) : Payment SlotUsage :=
  if usage.level < spellLevel then
    .short ⟨"slot level for a level " ++ toString spellLevel ++ " spell", spellLevel, usage.level⟩
  else if available < 1 then .short ⟨usage.label, 1, available⟩
  else .granted usage

namespace Character

/-- The level that pact slots are cast at: the tracked level, else the first positive number among the
variables that may record it, else the default for those who have pact slots. -/
def pactLevel (c : Character) (defaultLevel : Int) : Except SlotFault (Option Int) :=
  match c.spellSlots.pactLevel with
  | some level => .ok (some level)
  | none =>
    match SpellSlots.recordedPactLevel? c.heldVariable? with
    | some x =>
      match x.truncate? with
      | some level => .ok (some level)
      | none => .error .pactLevelOutOfRange
    | none => .ok (if c.spellSlots.hasPactMagic then some defaultLevel else none)

/-- Current and greatest number of ordinary slots of a level. At the pact level pact slots are taken
off both. -/
def ordinaryCounts (c : Character) (level : Int) (pactLevel : Option Int) : Int × Int :=
  let slots := c.spellSlots
  if slots.hasPactMagic && pactLevel == some level then
    (max 0 (slots.available level - slots.pactCurrent), max 0 (slots.maxFor level - slots.pactMax))
  else (slots.available level, slots.maxFor level)

/-- The pact pool, if it reaches the level of the spell. -/
def pactOffering (c : Character) (spellLevel : Int) (pactLevel : Option Int) : List SlotOffering :=
  match pactLevel with
  | some level =>
    if c.spellSlots.hasPactMagic && spellLevel ≤ level then
      [⟨.pact level, level, c.spellSlots.pactCurrent, c.spellSlots.pactMax, true, pactLabel level⟩]
    else []
  | none => []

/-- The pool of a level, unless it is empty for good. -/
def ordinaryOffering (c : Character) (spellLevel : Int) (pactLevel : Option Int) (level : Int) :
    Option SlotOffering :=
  let (current, maximum) := c.ordinaryCounts level pactLevel
  if maximum ≤ 0 then none
  else some ⟨.ofLevel level, level, current, maximum, false, slotLabel level spellLevel⟩

/-- The slots that can pay for a spell, the pact pool first and then by level. -/
def slotOfferings (c : Character) (defaultLevel spellLevel : Int) :
    Except SlotFault (List SlotOffering) :=
  (c.pactLevel defaultLevel).map fun pactLevel =>
    c.pactOffering spellLevel pactLevel ++
      (slotLevels.filter fun level => spellLevel ≤ level).filterMap
        (c.ordinaryOffering spellLevel pactLevel)

/-- Whether a selected slot can pay for a spell. -/
def checkSlot (c : Character) (defaultLevel spellLevel level : Int) (isPact : Bool) :
    Except SlotFault (Payment SlotUsage) := do
  let pactLevel ← c.pactLevel defaultLevel
  if isPact then
    match pactLevel with
    | some expected =>
      if level ≠ expected then .error (.otherPactLevel expected level)
      else .ok ((SlotUsage.pact level).payment spellLevel c.spellSlots.pactCurrent)
    | none => .ok ((SlotUsage.pact level).payment spellLevel c.spellSlots.pactCurrent)
  else
    .ok ((SlotUsage.ordinary level spellLevel).payment spellLevel (c.ordinaryCounts level pactLevel).1)

end Character

end HeroSheet
