import HeroSheet.Sheet.Variable

namespace HeroSheet

def minSlotLevel : Int := 1

def maxSlotLevel : Int := 9

/-- The slot levels in ascending order. -/
def slotLevels : List Int := [1, 2, 3, 4, 5, 6, 7, 8, 9]

/-- Counts by level; a level that is not listed counts zero. -/
abbrev LevelCounts := List (Int × Int)

namespace LevelCounts

def get (counts : LevelCounts) (level : Int) : Int :=
  (Entries.get? counts level).getD 0

/-- The counts with one level set; a level listed already keeps its place. -/
def set (counts : LevelCounts) (level count : Int) : LevelCounts := Entries.put counts level count

def levels (counts : LevelCounts) : List Int := counts.map (·.1)

end LevelCounts

structure SpellSlots where
  current : LevelCounts
  maximum : LevelCounts
  pactCurrent : Int
  pactMax : Int
  pactLevel : Option Int
  deriving DecidableEq

namespace SpellSlots

def empty : SpellSlots := ⟨[], [], 0, 0, none⟩

def available (slots : SpellSlots) (level : Int) : Int := slots.current.get level

def maxFor (slots : SpellSlots) (level : Int) : Int := slots.maximum.get level

/-- There are pact slots at all. -/
def hasPactMagic (slots : SpellSlots) : Bool := 0 < slots.pactMax

/-- Variables that may record the pact slot level, in the order in which they are asked. -/
def pactLevelVariables : List String :=
  ["pactMagicSlotLevel", "pactSlotLevelVisible", "pactSlotLevel", "slotLevel"]

/-- The first positive number among the variables that may record the pact slot level. -/
def recordedPactLevel? (heldVariable? : String → Option Variable) : Option Binary64 :=
  pactLevelVariables.findSome? fun name =>
    ((heldVariable? name).bind Variable.number?).filter fun x => Binary64.zero.lt x

/-- Every counter lies between zero and its maximum, and every level is a slot level. -/
structure InBounds (slots : SpellSlots) : Prop where
  levels : ∀ level ∈ slots.current.levels ++ slots.maximum.levels,
    minSlotLevel ≤ level ∧ level ≤ maxSlotLevel
  counts : ∀ level ∈ slots.current.levels ++ slots.maximum.levels,
    0 ≤ slots.available level ∧ slots.available level ≤ slots.maxFor level
  pact : 0 ≤ slots.pactCurrent ∧ slots.pactCurrent ≤ slots.pactMax

end SpellSlots

end HeroSheet
