import HeroSheet.Cast.Metamagic
import HeroSheet.Cast.Rolls
import HeroSheet.Cast.Slot
import HeroSheet.Rule.Catalog
import HeroSheet.Rule.Edition

namespace HeroSheet

/-- Parts of a source that mark a magic item. -/
def magicItemKeywords : List String :=
  [ "amulet", "ring", "wand", "staff", "rod", "cloak", "boots", "bracers", "gauntlets", "helm",
    "armor", "weapon", "talisman", "orb", "scroll", "potion" ]

namespace Spell

/-- The spell comes from a magic item. -/
def isFromItem (spell : Spell) : Bool := magicItemKeywords.any (mentions (lowered spell.source))

/-- The spell consumes items, or is cast without a slot. -/
def isFree (spell : Spell) : Bool := !spell.itemsConsumed.isEmpty || spell.castWithoutSlot

end Spell

/-- The spell is concentrated on already. -/
def Session.isRecast (s : Session) (spell : Spell) : Bool :=
  spell.concentration && s.concentratingOn == some spell.name

/-- How far a cast has come. -/
inductive CastPhase where
  | slotSelectionPending
  | done
  | maintainedEffectTracked
  deriving DecidableEq, Repr

namespace CastPhase

def name : CastPhase → String
  | .slotSelectionPending => "resource_selection_pending"
  | .done => "done"
  | .maintainedEffectTracked => "maintained_effect_tracked"

end CastPhase

/-- What a cast asks to be kept track of. -/
inductive CastEffectKind where
  | concentration
  | trackReusable
  | needsSlotSelection
  | manualAdjudication
  deriving DecidableEq, Repr

namespace CastEffectKind

def name : CastEffectKind → String
  | .concentration => "concentration"
  | .trackReusable => "track_reusable"
  | .needsSlotSelection => "needs_slot_selection"
  | .manualAdjudication => "manual_adjudication"

end CastEffectKind

structure CastEffect where
  kind : CastEffectKind
  spell : String
  minLevel : Option Int
  description : Option String
  deriving DecidableEq, Repr

/-- The choices that are made for a cast. -/
structure CastOptions where
  slot : Option SlotSelection
  metamagic : List Metamagic
  isRecast : Bool
  deriving DecidableEq, Repr

def CastOptions.none : CastOptions := ⟨Option.none, [], false⟩

structure CastResolution where
  text : String
  rolls : List RollRequest
  effects : List CastEffect
  slotUsed : Option SlotUsage
  metamagicUsed : List Metamagic
  isCantrip : Bool
  isFreeCast : Bool
  changes : List ResourceChange
  phase : CastPhase
  deriving DecidableEq, Repr

namespace CastResolution

def needsSlotSelection (r : CastResolution) : Bool :=
  r.effects.any fun e => e.kind == .needsSlotSelection

/-- The first effect of a kind. -/
def effect? (r : CastResolution) (kind : CastEffectKind) : Option CastEffect :=
  r.effects.find? fun e => e.kind == kind

end CastResolution

/-- Why a cast cannot be resolved. -/
inductive CastFault where
  | slot (fault : SlotFault)
  | configuration (fault : ConfigurationFault)
  deriving DecidableEq, Repr

/-- How a cast was paid for. -/
structure PaidCast where
  text : String
  castLevel : Option Int
  slot : Option SlotUsage
  metamagic : List Metamagic
  changes : List ResourceChange
  deriving DecidableEq, Repr

/-- The note of spells that are left to the game master. -/
def adjudicationNote : String := "Requires DM intervention"

/-- Effects that outlast the cast; casting a spell again starts none. -/
def trackingEffects (spell : Spell) (reusable recast : Bool) : List CastEffect :=
  (if spell.concentration && !recast then [⟨.concentration, spell.name, none, none⟩] else []) ++
  (if reusable && !recast then [⟨.trackReusable, spell.name, none, none⟩] else [])

/-- The effect of a spell that is left to the game master. -/
def adjudication (spell : Spell) (tooComplicated : Bool) : List CastEffect :=
  if tooComplicated then [⟨.manualAdjudication, spell.name, none, some adjudicationNote⟩] else []

/-- The phase in which a cast ends. -/
def finalPhase (effects : List CastEffect) : CastPhase :=
  if effects.any fun e => e.kind == .concentration || e.kind == .trackReusable then
    .maintainedEffectTracked
  else .done

/-- Why a cast needs no slot. -/
def freeReason? (spell : Spell) (options : CastOptions) : Option String :=
  if options.isRecast then some "concentration recast"
  else if spell.isFromItem then some "magic item"
  else if spell.isFree then some "free spell"
  else if spell.isCantrip then some "cantrip"
  else none

namespace Character

/-- Pays for a cast that needs no slot; a level stays known for its rolls. -/
def payFree (c : Character) (spell : Spell) (options : CastOptions) (reason : String) :
    Payment PaidCast :=
  match c.chargeMetamagic options.metamagic spell.baseLevel with
  | .short shortfall => .short shortfall
  | .granted (used, changes) =>
    .granted
      ⟨"Cast " ++ spell.name ++ " (" ++ reason ++ ")" ++ Metamagic.suffix used,
        if spell.isCantrip then none else some spell.baseLevel, none, used, changes⟩

/-- The change that spends a slot. -/
def slotChange (usage : SlotUsage) : ResourceChange :=
  ⟨if usage.isPact then .pactSlot else .spellSlot, usage.key, -1⟩

/-- Pays for a cast with the selected slot. -/
def payWithSlot (c : Character) (defaultLevel : Int) (spell : Spell) (options : CastOptions)
    (selection : SlotSelection) : Except SlotFault (Payment PaidCast) := do
  let (level, isPact) ← selection.read
  match ← c.checkSlot defaultLevel spell.baseLevel level isPact with
  | .short shortfall => .ok (.short shortfall)
  | .granted usage =>
    match c.chargeMetamagic options.metamagic level with
    | .short shortfall => .ok (.short shortfall)
    | .granted (used, changes) =>
      .ok (.granted
        ⟨"Cast " ++ spell.name ++ " using " ++ usage.label ++ Metamagic.suffix used, some level,
          some usage, used, slotChange usage :: changes⟩)

/-- The rolls of a spell, unless it is left to the game master. -/
def castRolls (c : Character) (config : Config) (spell : Spell) (tooComplicated : Bool)
    (castLevel : Option Int) : Except CastFault (List RollRequest) :=
  if tooComplicated then .ok [] else (c.spellRolls config castLevel spell).mapError .configuration

/-- The resolution of a cast that was paid for. -/
def paidResolution (c : Character) (config : Config) (spell : Spell) (options : CastOptions)
    (reusable tooComplicated : Bool) (paid : PaidCast) : Except CastFault CastResolution := do
  let effects := trackingEffects spell reusable options.isRecast ++ adjudication spell tooComplicated
  let rolls ← c.castRolls config spell tooComplicated paid.castLevel
  .ok ⟨paid.text, rolls, effects, paid.slot, paid.metamagic, spell.isCantrip,
    spell.isFromItem || spell.isFree || options.isRecast, paid.changes, finalPhase effects⟩

/-- The resolution of a cast that waits for a slot. -/
def pendingResolution (c : Character) (config : Config) (spell : Spell)
    (reusable tooComplicated : Bool) : Except CastFault CastResolution := do
  let effects := ⟨.needsSlotSelection, spell.name, some spell.baseLevel, none⟩ ::
    (trackingEffects spell reusable false ++ adjudication spell tooComplicated)
  let rolls ← c.castRolls config spell tooComplicated none
  .ok ⟨"Cast " ++ spell.name ++ " (needs level " ++ toString spell.baseLevel ++ "+ slot)", rolls,
    effects, none, [], false, false, [], .slotSelectionPending⟩

/-- The payment of a cast; none when it waits for a slot. -/
def payCast (c : Character) (defaultLevel : Int) (spell : Spell) (options : CastOptions) :
    Except SlotFault (Option (Payment PaidCast)) :=
  match freeReason? spell options with
  | some reason => .ok (some (c.payFree spell options reason))
  | none =>
    match options.slot with
    | some selection => (c.payWithSlot defaultLevel spell options selection).map some
    | none => .ok none

/-- What casting a spell comes to. Cantrips, spells from items, free spells and recasts need no slot;
other spells wait for one to be selected. -/
def resolveCast (c : Character) (config : Config) (spell : Spell) (options : CastOptions) :
    Except CastFault (Payment CastResolution) := do
  let settings ← config.mapError .configuration
  let edition := detectEdition settings (some c)
  let reusable := RuleCatalog.bundled.isReusable spell.name (some edition)
  let tooComplicated := RuleCatalog.bundled.isTooComplicated spell.name (some edition)
  match ← (c.payCast settings.defaultPactLevel spell options).mapError .slot with
  | none => (c.pendingResolution config spell reusable tooComplicated).map .granted
  | some (.short shortfall) => .ok (.short shortfall)
  | some (.granted paid) =>
    (c.paidResolution config spell options reusable tooComplicated paid).map .granted

end Character

/-- Keeps track of the concentration that a resolution asks for; gives the spell whose concentration
it breaks. -/
def Session.trackCast (s : Session) (r : CastResolution) : Option String × Session :=
  match r.effect? .concentration with
  | some effect => s.concentrate (some effect.spell)
  | none => (none, s)

end HeroSheet
