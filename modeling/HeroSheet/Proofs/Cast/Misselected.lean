import HeroSheet.Proofs.Cast.Offers

/-!
Selections that a cast is at fault for. A cast that takes a slot is at fault when its selection names no level of
slots, or a pact slot of another level than that of the pact slots; it is at fault for a selection that names one
only when the level of the pact slots is infinite.
-/

namespace HeroSheet

namespace SlotSelection

variable {selection : SlotSelection} {level : Int} {isPact : Bool}

end SlotSelection

/-- The cast is paid for with the slot that it selects: nothing makes it free. -/
structure CastOptions.PaysWith (options : CastOptions) (spell : Spell) (selection : SlotSelection) : Prop where
  chosen : options.slot = some selection
  leveled : spell.isCantrip = false
  notFromItem : spell.isFromItem = false
  notFree : spell.isFree = false
  notRecast : options.isRecast = false

namespace Character

variable {c : Character} {settings : Settings} {spell : Spell} {options : CastOptions} {defaultLevel : Int}
  {selection : SlotSelection} {level : Int} {isPact : Bool} {fault : SlotFault}

section Faults

end Faults

end Character

end HeroSheet
