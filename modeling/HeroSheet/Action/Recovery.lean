import HeroSheet.Action.Cost

namespace HeroSheet

/-- Why no slot can be recovered. -/
inductive RecoveryFault where
  | notRecoverable (level greatest : Int)
  | bonusOutOfRange
  deriving DecidableEq, Repr

def RecoveryFault.report : RecoveryFault → Report
  | .notRecoverable level greatest =>
    .about .validation
      ("Cannot recover a level " ++ toString level ++ " slot (max level " ++ toString greatest ++ ")")
      [("field_name", .text "level"), ("invalid_value", .int level)] []
  | .bonusOutOfRange => .about .validation "Proficiency bonus out of range" [] []

/-- From here on half a proficiency bonus rounds to no binary number: twice the number midway between the
greatest of them and `2 ^ 1024`. -/
def halvableBound : Nat := power 2 1025 - power 2 971

namespace Character

/-- The greatest level of a slot that can be recovered: half the proficiency bonus, rounded up. -/
def maxRecoverableLevel (c : Character) : Except RecoveryFault Int :=
  if (halvableBound : Int) ≤ c.proficiencyBonus then .error .bonusOutOfRange
  else .ok (min maxSlotLevel ((c.proficiencyBonus + 1).fdiv 2))

/-- A slot of the level is spent. -/
def hasSpentSlot (c : Character) (level : Int) : Bool :=
  c.spellSlots.available level < c.spellSlots.maxFor level

/-- The levels with a spent slot that can be recovered. -/
def recoverableLevels (c : Character) : Except RecoveryFault (List Int) :=
  c.maxRecoverableLevel.map fun greatest =>
    slotLevels.filter fun level => level ≤ greatest && c.hasSpentSlot level

/-- The changes that recover a slot. Who keeps count of channel divinity spends one use of it. -/
def planRecovery (c : Character) (level : Int) :
    Except RecoveryFault (Payment (List ResourceChange)) := do
  let greatest ← c.maxRecoverableLevel
  if !(← c.recoverableLevels).contains level then .error (.notRecoverable level greatest)
  else
    let recovery : ResourceChange := ⟨.spellSlot, slotCounterName level, 1⟩
    match c.costResource? channelDivinityStem with
    | none => .ok (.granted [recovery])
    | some divinity =>
      if divinity.current < 1 then .ok (.short ⟨divinity.name, 1, divinity.current⟩)
      else .ok (.granted [recovery, ⟨.resource, divinity.key, -1⟩])

end Character

end HeroSheet
