import HeroSheet.Proofs.Cast.Consistent
import HeroSheet.Proofs.Cast.Resolved
import HeroSheet.Proofs.Formula.SlotLevel

/-!
The level that a spell is cast at. It is put for every mention of the slot level in the formulas that a spell rolls,
before they are resolved; so a roll mentions the slot level exactly when resolving brings a mention back.
-/

namespace HeroSheet

open Formula

/-- The formula of the attack of a spell, if it has one. -/
def Spell.attackFormulas (spell : Spell) : List String :=
  match spell.attackRoll with
  | none => []
  | some formula => if formula.isEmpty || formula == noAttackMark then [] else [formula]

/-- The formulas that a spell rolls, for its attack and for its damage. -/
def Spell.rolledFormulas (spell : Spell) : List String :=
  spell.attackFormulas ++ (Character.declaredDamage spell).map (·.formula)

namespace CastResolution

/-- The level of the slot that the cast takes, or that of the spell when it takes none. -/
def castLevel (r : CastResolution) (spell : Spell) : Int := (r.slotUsed.map (·.level)).getD spell.baseLevel

/-- The cast is left to the game master. -/
def IsAdjudicated (r : CastResolution) : Prop := ∃ e ∈ r.effects, e.kind = .manualAdjudication

end CastResolution

namespace Character

/-- No roll of the cast mentions the slot level, unless the cast waits for a slot. -/
def SettlesSlotLevel (c : Character) (config : Config) (spell : Spell) (options : CastOptions) : Prop :=
  ∀ r, c.resolveCast config spell options = .ok (.granted r) → r.phase ≠ .slotSelectionPending →
    ∀ roll ∈ r.rolls, mentionsSlotLevel roll.formula.toList = false

variable {c : Character} {config : Config} {settings : Settings} {spell : Spell} {options : CastOptions}

section Rolls

variable {formula prepared : String} {castLevel : Option Int} {rolls : List RollRequest}

private theorem mentionsSlotLevel_prepareFormula (formed : c.prepareFormula config formula = .ok prepared) :
    mentionsSlotLevel prepared.toList = mentionsSlotLevel (c.resolve formula.toList) := by
  unfold prepareFormula simplifyIn simplifyWithin at formed
  obtain ⟨simplified, passed, rfl⟩ := map_eq_ok_iff.mp formed
  rw [String.toList_ofList]
  split at passed
  · rename_i empty
    rw [List.isEmpty_iff.mp empty, ← Except.ok.inj passed]
  · obtain ⟨passes, _, rfl⟩ := map_eq_ok_iff.mp passed
    exact mentionsSlotLevel_simplify passes _

/-- A formula of a spell that is cast at a level mentions the slot level exactly when resolving brings a mention. -/
theorem mentionsSlotLevel_prepareSpellFormula {level : Int}
    (formed : c.prepareSpellFormula config (some level) formula = .ok prepared) :
    mentionsSlotLevel prepared.toList = true ↔ c.Revives (substituteSlotLevel level formula.toList) := by
  rw [mentionsSlotLevel_prepareFormula formed, String.toList_ofList]
  exact mentionsSlotLevel_resolve_iff (mentionsSlotLevel_substituteSlotLevel level formula.toList)

/-- A roll is that of a formula. -/
def Rolls (c : Character) (config : Config) (castLevel : Option Int) (formula : String) (roll : RollRequest) : Prop :=
  c.prepareSpellFormula config castLevel formula = .ok roll.formula

private theorem rolls_of_attackRequest (requested : c.attackRequest config castLevel spell = .ok rolls) :
    List.Forall₂ (c.Rolls config castLevel) spell.attackFormulas rolls := by
  unfold attackRequest at requested
  unfold Spell.attackFormulas
  cases declared : spell.attackRoll with
  | none =>
    rw [declared] at requested
    obtain rfl := Except.ok.inj requested
    exact .nil
  | some formula =>
    rw [declared] at requested
    simp only at requested ⊢
    by_cases missing : (formula.isEmpty || formula == noAttackMark) = true
    · rw [if_pos missing] at requested ⊢
      obtain rfl := Except.ok.inj requested
      exact .nil
    · rw [if_neg missing] at requested ⊢
      obtain ⟨prepared, formed, rfl⟩ := map_eq_ok_iff.mp requested
      exact .cons formed .nil

private theorem rolls_of_damageRequest {damageType : String} {roll : RollRequest}
    (requested : c.damageRequest config castLevel spell formula damageType = .ok roll) :
    c.Rolls config castLevel formula roll := by
  unfold damageRequest at requested
  obtain ⟨prepared, formed, requested⟩ := bind_eq_ok_iff.mp requested
  obtain rfl := Except.ok.inj requested
  exact formed

/-- The rolls of a spell are those of its formulas, one by one. -/
theorem forall₂_spellRolls (rolled : c.spellRolls config castLevel spell = .ok rolls) :
    List.Forall₂ (c.Rolls config castLevel) spell.rolledFormulas rolls := by
  unfold spellRolls at rolled
  obtain ⟨attack, attacks, rolled⟩ := bind_eq_ok_iff.mp rolled
  obtain ⟨damage, damages, rolled⟩ := bind_eq_ok_iff.mp rolled
  obtain rfl := Except.ok.inj rolled
  refine List.rel_append (rolls_of_attackRequest attacks) ?_
  rw [List.forall₂_map_left_iff]
  exact (forall₂_of_mapM damages).imp fun _ _ => rolls_of_damageRequest

end Rolls

section Paid

variable {defaultLevel : Int} {paid : PaidCast}

private theorem castLevel_of_payFree {reason : String} (leveled : 1 ≤ spell.baseLevel)
    (granted : c.payFree spell options reason = .granted paid) :
    paid.castLevel = some ((paid.slot.map (·.level)).getD spell.baseLevel) := by
  have uncantrip : ¬ spell.isCantrip = true := by
    unfold Spell.isCantrip
    rw [decide_eq_true_iff]
    omega
  unfold payFree at granted
  split at granted
  · cases granted
  · obtain rfl := Payment.granted.inj granted
    exact if_neg uncantrip

private theorem castLevel_of_payWithSlot {selection : SlotSelection}
    (granted : c.payWithSlot defaultLevel spell options selection = .ok (.granted paid)) :
    paid.castLevel = some ((paid.slot.map (·.level)).getD spell.baseLevel) := by
  unfold payWithSlot at granted
  obtain ⟨⟨level, isPact⟩, _, granted⟩ := bind_eq_ok_iff.mp granted
  obtain ⟨outcome, checked, granted⟩ := bind_eq_ok_iff.mp granted
  split at granted
  · cases granted
  · split at granted
    · cases granted
    · obtain rfl := Payment.granted.inj (Except.ok.inj granted)
      exact congrArg some (level_of_checkSlot checked).symm

/-- The cast level is that of the slot, or that of the spell. -/
theorem castLevel_of_payCast (leveled : 1 ≤ spell.baseLevel)
    (granted : c.payCast defaultLevel spell options = .ok (some (.granted paid))) :
    paid.castLevel = some ((paid.slot.map (·.level)).getD spell.baseLevel) := by
  unfold payCast at granted
  split at granted
  · exact castLevel_of_payFree leveled (Option.some.inj (Except.ok.inj granted))
  · split at granted
    · obtain ⟨payment, paying, same⟩ := map_eq_ok_iff.mp granted
      obtain rfl := Option.some.inj same
      exact castLevel_of_payWithSlot paying
    · cases granted

end Paid

private theorem isAdjudicated_resolution_iff {paid : PaidCast} {reusable tooComplicated : Bool}
    {rolls : List RollRequest} :
    (paid.resolution spell options reusable tooComplicated rolls).IsAdjudicated ↔ tooComplicated = true := by
  constructor
  · rintro ⟨e, listed, kind⟩
    exact tooComplicated_of_adjudicated listed kind
  · rintro rfl
    exact ⟨_, List.mem_append_right _ List.mem_cons_self, rfl⟩

private theorem slotless_castRolls_iff {level : Int} {tooComplicated : Bool} {rolls : List RollRequest}
    (rolled : c.castRolls config spell tooComplicated (some level) = .ok rolls) :
    (∀ roll ∈ rolls, mentionsSlotLevel roll.formula.toList = false) ↔
      tooComplicated = true ∨
        ∀ formula ∈ spell.rolledFormulas, ¬ c.Revives (substituteSlotLevel level formula.toList) := by
  cases tooComplicated with
  | true =>
    rw [rolls_of_complicated rolled]
    exact iff_of_true (by simp) (Or.inl rfl)
  | false =>
    have formed := forall₂_spellRolls (mapError_eq_ok_iff.mp rolled)
    have each := forall_mem_iff_of_forall₂ (formed.imp fun formula roll prepared =>
      (mentionsSlotLevel_prepareSpellFormula prepared).not)
    simpa using each

private theorem slotless_rolls_iff (leveled : 1 ≤ spell.baseLevel) {r : CastResolution}
    (resolved : c.resolveCast config spell options = .ok (.granted r)) (finished : r.phase ≠ .slotSelectionPending) :
    (∀ roll ∈ r.rolls, mentionsSlotLevel roll.formula.toList = false) ↔
      r.IsAdjudicated ∨
        ∀ formula ∈ spell.rolledFormulas, ¬ c.Revives (substituteSlotLevel (r.castLevel spell) formula.toList) := by
  obtain ⟨settings, _, _, _, _, rfl, _, ⟨paid, granted, _⟩ | ⟨_, rfl⟩⟩ := resolveCast_cases resolved
  · rw [resolveCast_eq_of_granted granted, castLevel_of_payCast leveled granted] at resolved
    obtain ⟨rolls, rolled, same⟩ := map_eq_ok_iff.mp resolved
    obtain rfl := Payment.granted.inj same
    rw [isAdjudicated_resolution_iff]
    exact slotless_castRolls_iff rolled
  · exact absurd rfl finished

/-- A cast of a spell with a level settles the slot level exactly when resolving brings a mention into none of the
formulas that it rolls with the level put in them. -/
theorem settlesSlotLevel_iff (leveled : 1 ≤ spell.baseLevel) :
    c.SettlesSlotLevel config spell options ↔
      ∀ r, c.resolveCast config spell options = .ok (.granted r) → r.phase ≠ .slotSelectionPending →
        ¬ r.IsAdjudicated → ∀ formula ∈ spell.rolledFormulas,
          ¬ c.Revives (substituteSlotLevel (r.castLevel spell) formula.toList) := by
  refine forall_congr' fun r => forall_congr' fun resolved => forall_congr' fun finished => ?_
  rw [slotless_rolls_iff leveled resolved finished]
  exact or_iff_not_imp_left

/-- A sheet with a slot of the first level, and a variable for dice. -/
def scaled (dice : String) : Character :=
  { plain with
    bag := [("dice", .text dice)]
    spellSlots := ⟨[(1, 1)], [(1, 1)], 0, 0, none⟩ }

private theorem valid_scaled (dice : String) : (scaled dice).Valid :=
  { valid_plain with slots := .singleLevel (by decide) (by decide) (by decide) nofun }

/-- A spell of the first level that does damage. -/
def scaledSpell (formula : String) : Spell := { bareSpell 1 with damage := some formula }

/-- The cast with a slot of the first level. -/
def firstLevelCast : CastOptions := ⟨some (.ofLevel 1), [], false⟩

/-- What that cast is paid with. -/
def firstLevelPaid : PaidCast :=
  ⟨"Cast Zap using Level 1 slot", some 1, some (.ordinary 1 1), [], [⟨.spellSlot, "level1SpellSlots", -1⟩]⟩

/-- Dice that count the level of the slot are settled. -/
theorem settlesSlotLevel_scaled :
    1 ≤ (scaledSpell "slotLeveld6").baseLevel ∧
      (scaled "1d6").SettlesSlotLevel (.ok .default) (scaledSpell "slotLeveld6") firstLevelCast := by
  refine ⟨by decide, (settlesSlotLevel_iff (by decide)).mpr ?_⟩
  intro r resolved _ _ formula rolled
  have granted : (scaled "1d6").payCast Settings.default.defaultPactLevel (scaledSpell "slotLeveld6")
      firstLevelCast = .ok (some (.granted firstLevelPaid)) := by
    decide +kernel
  have level : r.castLevel (scaledSpell "slotLeveld6") = 1 := by
    rw [CastResolution.castLevel, slotUsed_of_granted granted resolved]
    rfl
  obtain rfl : formula = "slotLeveld6" := List.mem_singleton.mp rolled
  rw [level]
  rintro (⟨named, _⟩ | ⟨_, _, mentions⟩)
  · have bare : (scaled "1d6").bareValue? (substituteSlotLevel 1 "slotLeveld6".toList) = none := by decide +kernel
    cases bare.symm.trans named
  · exact absurd mentions (by decide +kernel)

/-- A variable in whose text the slot level stands brings it to the roll of a cast that has its slot. -/
theorem not_settlesSlotLevel_spliced :
    (scaled "slotLeveld6").Valid ∧ (scaledSpell "dice").Valid ∧
      ∃ r, (scaled "slotLeveld6").resolveCast (.ok .default) (scaledSpell "dice") firstLevelCast =
          .ok (.granted r) ∧
        r.slotUsed = some (.ordinary 1 1) ∧ r.phase ≠ .slotSelectionPending ∧
        r.rolls.map (·.formula) = ["slotLeveld6"] ∧
        ¬ (scaled "slotLeveld6").SettlesSlotLevel (.ok .default) (scaledSpell "dice") firstLevelCast := by
  have granted : (scaled "slotLeveld6").payCast Settings.default.defaultPactLevel (scaledSpell "dice")
      firstLevelCast = .ok (some (.granted firstLevelPaid)) := by
    decide +kernel
  have uncomplicated : (scaled "slotLeveld6").spellTooComplicated .default (scaledSpell "dice") = false := by
    have edition : detectEdition .default (some (scaled "slotLeveld6")) = .of2014 := by decide +kernel
    exact spellTooComplicated_of_unruled (by rw [edition]; exact unruled_bareSpell)
  have rolled : (scaled "slotLeveld6").castRolls (.ok .default) (scaledSpell "dice") false firstLevelPaid.castLevel =
      .ok [⟨"Zap - damage", "slotLeveld6", .damage, [], some "damage"⟩] := by
    decide +kernel
  have resolved := resolveCast_eq_of_granted granted
  rw [uncomplicated, rolled] at resolved
  have valid : (bareSpell 1).Valid := valid_bareSpell (by decide) (by decide)
  refine ⟨valid_scaled _, ⟨valid.named, valid.level, valid.damage⟩, _, resolved, rfl,
    phase_resolution_ne_pending, rfl, ?_⟩
  intro settles
  have silent := settles _ resolved phase_resolution_ne_pending _ List.mem_cons_self
  exact absurd silent (by decide +kernel)

end Character

end HeroSheet
