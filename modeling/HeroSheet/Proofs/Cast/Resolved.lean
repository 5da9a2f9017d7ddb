import HeroSheet.Proofs.Cast.Plan

namespace HeroSheet

namespace Character

section Rolls

variable (c : Character) (settings : Settings)

theorem exists_prepareFormula (formula : String) :
    ∃ prepared, c.prepareFormula (.ok settings) formula = .ok prepared := by
  unfold prepareFormula Formula.simplifyIn Formula.simplifyWithin
  by_cases empty : (c.resolve formula.toList).isEmpty
  · rw [if_pos empty]
    exact ⟨_, rfl⟩
  · rw [if_neg empty]
    exact ⟨_, rfl⟩

theorem exists_prepareSpellFormula (castLevel : Option Int) (formula : String) :
    ∃ prepared, c.prepareSpellFormula (.ok settings) castLevel formula = .ok prepared := by
  cases castLevel with
  | none => exact c.exists_prepareFormula settings formula
  | some level => exact c.exists_prepareFormula settings _

private theorem exists_damageRequest (castLevel : Option Int) (spell : Spell) (formula damageType : String) :
    ∃ request, c.damageRequest (.ok settings) castLevel spell formula damageType = .ok request := by
  obtain ⟨prepared, formed⟩ := c.exists_prepareSpellFormula settings castLevel formula
  unfold damageRequest
  exact ⟨_, bind_eq_ok_iff.mpr ⟨prepared, formed, rfl⟩⟩

private theorem exists_attackRequest (castLevel : Option Int) (spell : Spell) :
    ∃ requests, c.attackRequest (.ok settings) castLevel spell = .ok requests := by
  unfold attackRequest
  cases spell.attackRoll with
  | none => exact ⟨[], rfl⟩
  | some formula =>
    simp only
    by_cases missing : (formula.isEmpty || formula == noAttackMark) = true
    · rw [if_pos missing]
      exact ⟨[], rfl⟩
    · obtain ⟨prepared, formed⟩ := c.exists_prepareSpellFormula settings castLevel formula
      rw [if_neg missing]
      exact ⟨_, map_eq_ok_iff.mpr ⟨prepared, formed, rfl⟩⟩

theorem exists_spellRolls (castLevel : Option Int) (spell : Spell) :
    ∃ rolls, c.spellRolls (.ok settings) castLevel spell = .ok rolls := by
  obtain ⟨attack, attacks⟩ := c.exists_attackRequest settings castLevel spell
  have each : ∀ roll ∈ declaredDamage spell, ∃ request,
      c.damageRequest (.ok settings) castLevel spell roll.formula roll.damageType = .ok request :=
    fun roll _ => c.exists_damageRequest settings castLevel spell roll.formula roll.damageType
  obtain ⟨damage, damages⟩ := exists_mapM_eq_ok each
  unfold spellRolls
  exact ⟨_, bind_eq_ok_iff.mpr ⟨attack, attacks, bind_eq_ok_iff.mpr ⟨damage, damages, rfl⟩⟩⟩

theorem exists_castRolls (spell : Spell) (tooComplicated : Bool) (castLevel : Option Int) :
    ∃ rolls, c.castRolls (.ok settings) spell tooComplicated castLevel = .ok rolls := by
  unfold castRolls
  cases tooComplicated with
  | true => exact ⟨[], rfl⟩
  | false =>
    obtain ⟨rolls, rolled⟩ := c.exists_spellRolls settings castLevel spell
    exact ⟨rolls, mapError_eq_ok_iff.mpr rolled⟩

end Rolls

/-- The spell can be used again, by the rules of the character's edition. -/
def spellReusable (c : Character) (settings : Settings) (spell : Spell) : Bool :=
  RuleCatalog.bundled.isReusable spell.name (some (detectEdition settings (some c)))

/-- The spell is left to the game master, by the rules of the character's edition. -/
def spellTooComplicated (c : Character) (settings : Settings) (spell : Spell) : Bool :=
  RuleCatalog.bundled.isTooComplicated spell.name (some (detectEdition settings (some c)))

variable {c : Character} {settings : Settings} {spell : Spell} {options : CastOptions}

theorem spellTooComplicated_of_unruled
    (unruled : RuleCatalog.bundled.lookup spell.name (some .spell) (some (detectEdition settings (some c))) = none) :
    c.spellTooComplicated settings spell = false := by
  rw [spellTooComplicated, RuleCatalog.isTooComplicated, unruled, Option.any_none]

theorem resolveCast_eq_of_granted {paid : PaidCast}
    (granted : c.payCast settings.defaultPactLevel spell options = .ok (some (.granted paid))) :
    c.resolveCast (.ok settings) spell options =
      (c.castRolls (.ok settings) spell (c.spellTooComplicated settings spell) paid.castLevel).map fun rolls =>
        .granted (paid.resolution spell options (c.spellReusable settings spell)
          (c.spellTooComplicated settings spell) rolls) := by
  change (c.payCast settings.defaultPactLevel spell options).mapError CastFault.slot >>= _ = _
  rw [granted]
  change (c.paidResolution (.ok settings) spell options (c.spellReusable settings spell)
    (c.spellTooComplicated settings spell) paid).map Payment.granted = _
  rw [paidResolution_eq]
  cases c.castRolls (.ok settings) spell (c.spellTooComplicated settings spell) paid.castLevel <;> rfl

private theorem resolveCast_eq_of_waiting (waiting : c.payCast settings.defaultPactLevel spell options = .ok none) :
    c.resolveCast (.ok settings) spell options =
      (c.castRolls (.ok settings) spell (c.spellTooComplicated settings spell) none).map fun rolls =>
        .granted (spell.pending (c.spellReusable settings spell) (c.spellTooComplicated settings spell) rolls) := by
  change (c.payCast settings.defaultPactLevel spell options).mapError CastFault.slot >>= _ = _
  rw [waiting]
  change (c.pendingResolution (.ok settings) spell (c.spellReusable settings spell)
    (c.spellTooComplicated settings spell)).map Payment.granted = _
  rw [pendingResolution_eq]
  cases c.castRolls (.ok settings) spell (c.spellTooComplicated settings spell) none <;> rfl

/-- A cast that is paid for is resolved, and uses the slot that it was paid with. -/
theorem resolveCast_of_granted {paid : PaidCast}
    (granted : c.payCast settings.defaultPactLevel spell options = .ok (some (.granted paid))) :
    ∃ r, c.resolveCast (.ok settings) spell options = .ok (.granted r) ∧ r.slotUsed = paid.slot := by
  obtain ⟨rolls, rolled⟩ := c.exists_castRolls settings spell (c.spellTooComplicated settings spell) paid.castLevel
  rw [resolveCast_eq_of_granted granted, rolled]
  exact ⟨_, rfl, rfl⟩

theorem slotUsed_of_granted {paid : PaidCast} {r : CastResolution}
    (granted : c.payCast settings.defaultPactLevel spell options = .ok (some (.granted paid)))
    (resolved : c.resolveCast (.ok settings) spell options = .ok (.granted r)) : r.slotUsed = paid.slot := by
  obtain ⟨own, found, used⟩ := resolveCast_of_granted granted
  obtain rfl := Payment.granted.inj (Except.ok.inj (found.symm.trans resolved))
  exact used

theorem resolveCast_of_short {shortfall : InsufficientResource}
    (short : c.payCast settings.defaultPactLevel spell options = .ok (some (.short shortfall))) :
    c.resolveCast (.ok settings) spell options = .ok (.short shortfall) := by
  unfold resolveCast
  exact bind_eq_ok_iff.mpr ⟨settings, rfl, bind_eq_ok_iff.mpr ⟨_, mapError_eq_ok_iff.mpr short, rfl⟩⟩

theorem resolveCast_of_waiting (waiting : c.payCast settings.defaultPactLevel spell options = .ok none) :
    ∃ r, c.resolveCast (.ok settings) spell options = .ok (.granted r) ∧ r.phase = .slotSelectionPending := by
  obtain ⟨rolls, rolled⟩ := c.exists_castRolls settings spell (c.spellTooComplicated settings spell) none
  rw [resolveCast_eq_of_waiting waiting, rolled]
  exact ⟨_, rfl, rfl⟩

/-- A resolution that uses a slot was paid with it. -/
theorem payCast_of_slotUsed {r : CastResolution} {usage : SlotUsage}
    (resolved : c.resolveCast (.ok settings) spell options = .ok (.granted r))
    (used : r.slotUsed = some usage) :
    ∃ paid, c.payCast settings.defaultPactLevel spell options = .ok (some (.granted paid)) ∧
      paid.slot = some usage := by
  obtain ⟨_, _, _, _, _, ⟨⟩, _, ⟨paid, granted, rfl⟩ | ⟨_, rfl⟩⟩ := resolveCast_cases resolved
  · exact ⟨paid, granted, used⟩
  · cases used

/-- A slot is used when it was selected and the check let it pass. -/
theorem checkSlot_of_payCast {defaultLevel : Int} {paid : PaidCast} {usage : SlotUsage}
    (granted : c.payCast defaultLevel spell options = .ok (some (.granted paid)))
    (used : paid.slot = some usage) :
    ∃ selection level isPact, options.slot = some selection ∧ selection.read = .ok (level, isPact) ∧
      c.checkSlot defaultLevel spell.baseLevel level isPact = .ok (.granted usage) := by
  cases paidBy_of_payCast granted with
  | nothing _ unused _ =>
    rw [unused] at used
    cases used
  | @slot selection level isPact own _ _ chosen selected checked _ spent _ =>
    obtain rfl := Option.some.inj (spent.symm.trans used)
    exact ⟨selection, level, isPact, chosen, selected, checked⟩

end Character

end HeroSheet
