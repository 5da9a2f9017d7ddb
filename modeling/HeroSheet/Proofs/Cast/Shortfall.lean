import HeroSheet.Proofs.Action.Recovered
import HeroSheet.Proofs.Cast.Resolved

/-!
What refusals name. An action, a recovery and a slot are refused for something of which less is left than they need.
Metamagic is refused for that too, and is refused to those who count no sorcery points whatever it costs, so that a
refusal may name options that cost nothing.
-/

namespace HeroSheet

/-- More is needed than there is, and what there is is not below zero. -/
def InsufficientResource.IsReal (shortfall : InsufficientResource) : Prop :=
  shortfall.available < shortfall.required ∧ 0 ≤ shortfall.available

/-- The level that the metamagic of a cast is priced at: that of the spell when it needs no slot, else that of the
selected slot. -/
inductive Spell.PricedAt (spell : Spell) (options : CastOptions) : Int → Prop where
  | free {reason : String} (exempt : freeReason? spell options = some reason) : spell.PricedAt options spell.baseLevel
  | slot {selection : SlotSelection} {level : Int} {isPact : Bool} (needed : freeReason? spell options = none)
      (chosen : options.slot = some selection) (selected : selection.read = .ok (level, isPact)) :
      spell.PricedAt options level

theorem SlotUsage.isReal_of_payment {usage : SlotUsage} {spellLevel available : Int} {shortfall : InsufficientResource}
    (leveled : 0 ≤ usage.level) (counted : 0 ≤ available)
    (refused : usage.payment spellLevel available = .short shortfall) : shortfall.IsReal := by
  unfold SlotUsage.payment at refused
  split at refused
  · rename_i low
    cases refused
    exact ⟨low, leveled⟩
  · split at refused
    · rename_i spent
      cases refused
      exact ⟨spent, counted⟩
    · cases refused

namespace Character

variable {c : Character} {shortfall : InsufficientResource}

/-- Metamagic was chosen that costs nothing together, and there are no sorcery points to pay it with. -/
def UncountedPoints (c : Character) (spell : Spell) (options : CastOptions) (shortfall : InsufficientResource) : Prop :=
  options.metamagic ≠ [] ∧ c.sorceryPoints? = none ∧
    ∃ level, spell.PricedAt options level ∧ Metamagic.total (options.metamagic.map (Metamagic.priced level)) ≤ 0 ∧
      shortfall = ⟨"Sorcery Points", Metamagic.total (options.metamagic.map (Metamagic.priced level)), 0⟩

private theorem chargeMetamagic_eq_short_iff {selected : List Metamagic} {level : Int} :
    c.chargeMetamagic selected level = .short shortfall ↔
      selected ≠ [] ∧ ((c.sorceryPoints? = none ∧
          shortfall = ⟨"Sorcery Points", Metamagic.total (selected.map (Metamagic.priced level)), 0⟩) ∨
        ∃ points, c.sorceryPoints? = some points ∧
          points.current < Metamagic.total (selected.map (Metamagic.priced level)) ∧
          shortfall = ⟨points.name, Metamagic.total (selected.map (Metamagic.priced level)), points.current⟩) := by
  unfold chargeMetamagic
  by_cases none : selected = []
  · simp [none]
  · simp only [List.isEmpty_iff, none, if_false, ne_eq, not_false_eq_true, true_and]
    generalize Metamagic.total (selected.map (Metamagic.priced level)) = total
    cases c.sorceryPoints? with
    | none => simp [eq_comm]
    | some points => by_cases lacking : points.current < total <;> simp [lacking, eq_comm]

private theorem ordinaryCounts_nonneg (valid : c.Valid) (level : Int) (pactLevel : Option Int) :
    0 ≤ (c.ordinaryCounts level pactLevel).1 := by
  unfold ordinaryCounts
  simp only
  split
  · exact Int.le_max_left 0 _
  · exact (valid.slots.bounds.count level).1

private theorem isReal_of_checkSlot (valid : c.Valid) {defaultLevel spellLevel level : Int} {isPact : Bool}
    (leveled : 0 ≤ level)
    (refused : c.checkSlot defaultLevel spellLevel level isPact = .ok (.short shortfall)) : shortfall.IsReal := by
  have pact : 0 ≤ c.spellSlots.pactCurrent := valid.slots.bounds.pact.1
  unfold checkSlot at refused
  obtain ⟨pactLevel, _, refused⟩ := bind_eq_ok_iff.mp refused
  cases isPact with
  | false =>
    exact SlotUsage.isReal_of_payment leveled (ordinaryCounts_nonneg valid level pactLevel) (Except.ok.inj refused)
  | true =>
    simp only [if_true] at refused
    split at refused
    · split at refused
      · cases refused
      · exact SlotUsage.isReal_of_payment leveled pact (Except.ok.inj refused)
    · exact SlotUsage.isReal_of_payment leveled pact (Except.ok.inj refused)

section Cast

variable {config : Config} {defaultLevel : Int} {spell : Spell} {options : CastOptions}

private theorem payCast_of_short (refused : c.payCast defaultLevel spell options = .ok (some (.short shortfall))) :
    (∃ selection level isPact, options.slot = some selection ∧ selection.read = .ok (level, isPact) ∧
        c.checkSlot defaultLevel spell.baseLevel level isPact = .ok (.short shortfall)) ∨
      ∃ level, spell.PricedAt options level ∧ c.chargeMetamagic options.metamagic level = .short shortfall := by
  unfold payCast at refused
  cases exempt : freeReason? spell options with
  | some reason =>
    right
    simp only [exempt, payFree, Except.ok.injEq, Option.some.injEq] at refused
    refine ⟨spell.baseLevel, .free exempt, ?_⟩
    cases charged : c.chargeMetamagic options.metamagic spell.baseLevel with
    | granted charge => simp [charged] at refused
    | short own =>
      simp only [charged] at refused
      rw [Payment.short.inj refused]
  | none =>
    simp only [exempt] at refused
    cases chosen : options.slot with
    | none => simp [chosen] at refused
    | some selection =>
      simp only [chosen] at refused
      obtain ⟨payment, outcome, same⟩ := map_eq_ok_iff.mp refused
      obtain rfl := Option.some.inj same
      unfold payWithSlot at outcome
      obtain ⟨⟨level, isPact⟩, selected, outcome⟩ := bind_eq_ok_iff.mp outcome
      obtain ⟨checked, checking, outcome⟩ := bind_eq_ok_iff.mp outcome
      cases checked with
      | short own =>
        obtain rfl := Payment.short.inj (Except.ok.inj outcome)
        exact Or.inl ⟨selection, level, isPact, rfl, selected, checking⟩
      | granted usage =>
        right
        refine ⟨level, .slot exempt chosen selected, ?_⟩
        cases charged : c.chargeMetamagic options.metamagic level with
        | granted charge => simp [charged] at outcome
        | short own =>
          simp only [charged] at outcome
          rw [Payment.short.inj (Except.ok.inj outcome)]

private theorem payCast_of_resolveCast_short (refused : c.resolveCast config spell options = .ok (.short shortfall)) :
    ∃ settings, config = .ok settings ∧
      c.payCast settings.defaultPactLevel spell options = .ok (some (.short shortfall)) := by
  unfold resolveCast at refused
  obtain ⟨settings, configured, refused⟩ := bind_eq_ok_iff.mp refused
  obtain ⟨payment, paying, refused⟩ := bind_eq_ok_iff.mp refused
  refine ⟨settings, mapError_eq_ok_iff.mp configured, ?_⟩
  rcases payment with _ | (paid | own)
  · obtain ⟨_, _, same⟩ := map_eq_ok_iff.mp refused
    cases same
  · obtain ⟨_, _, same⟩ := map_eq_ok_iff.mp refused
    cases same
  · obtain rfl := Payment.short.inj (Except.ok.inj refused)
    exact mapError_eq_ok_iff.mp paying

private theorem isReal_of_resolveCast (valid : c.Valid)
    (refused : c.resolveCast config spell options = .ok (.short shortfall)) :
    shortfall.IsReal ∨ c.UncountedPoints spell options shortfall := by
  obtain ⟨settings, _, short⟩ := payCast_of_resolveCast_short refused
  obtain ⟨selection, level, isPact, _, selected, checked⟩ | ⟨level, priced, charged⟩ := payCast_of_short short
  · have low := (SlotSelection.bounds_of_read selected).1
    have leveled : 0 ≤ level := Int.le_trans (by decide) low
    exact Or.inl (isReal_of_checkSlot valid leveled checked)
  · obtain ⟨chosen, ⟨uncounted, rfl⟩ | ⟨points, counted, lacking, rfl⟩⟩ := chargeMetamagic_eq_short_iff.mp charged
    · by_cases free : Metamagic.total (options.metamagic.map (Metamagic.priced level)) ≤ 0
      · exact Or.inr ⟨chosen, uncounted, level, priced, free, rfl⟩
      · exact Or.inl ⟨Int.not_le.mp free, Int.le_refl 0⟩
    · exact Or.inl ⟨lacking, (valid.resources points (mem_of_sorceryPoints? counted)).bounds.1⟩

end Cast

private theorem isReal_of_planAction (valid : c.Valid) {action : Action}
    (refused : c.planAction action = .short shortfall) :
    shortfall.IsReal := by
  unfold planAction at refused
  simp only at refused
  split at refused
  · rename_i own found
    obtain ⟨e, listed, lacking, rfl⟩ := exists_of_shortfall? found
    obtain rfl := Payment.short.inj refused
    exact ⟨lacking, (valid.resources e.2.1 (resource_of_mem_demands listed).1).bounds.1⟩
  · cases refused

private theorem isReal_of_planRecovery (valid : c.Valid) {level : Int}
    (refused : c.planRecovery level = .ok (.short shortfall)) : shortfall.IsReal := by
  unfold planRecovery at refused
  obtain ⟨greatest, _, refused⟩ := bind_eq_ok_iff.mp refused
  obtain ⟨levels, _, refused⟩ := bind_eq_ok_iff.mp refused
  split at refused
  · cases refused
  · simp only at refused
    split at refused
    · cases refused
    · rename_i divinity tracked
      split at refused
      · rename_i spent
        obtain rfl := Payment.short.inj (Except.ok.inj refused)
        exact ⟨spent, (valid.resources divinity (mem_of_costResource? tracked)).bounds.1⟩
      · cases refused

/-- Whatever is refused falls short of what it needs, except for metamagic that costs nothing and is refused to a
character who counts no sorcery points. -/
theorem isReal_of_refused (valid : c.Valid) :
    (∀ config spell options shortfall, c.resolveCast config spell options = .ok (.short shortfall) →
        shortfall.IsReal ∨ c.UncountedPoints spell options shortfall) ∧
      (∀ action shortfall, c.planAction action = .short shortfall → shortfall.IsReal) ∧
      ∀ level shortfall, c.planRecovery level = .ok (.short shortfall) → shortfall.IsReal :=
  ⟨fun _ _ _ _ => isReal_of_resolveCast valid, fun _ _ => isReal_of_planAction valid,
    fun _ _ => isReal_of_planRecovery valid⟩

/-- An option at nine points is refused to a sorcerer who has one. -/
theorem isReal_of_refused_sorcerer :
    sorcerer.resolveCast (.ok .default) (bareSpell 3) (quickened 9) = .ok (.short ⟨"Sorcery Points", 9, 1⟩) ∧
      (InsufficientResource.mk "Sorcery Points" 9 1).IsReal := by
  have refused : sorcerer.resolveCast (.ok .default) (bareSpell 3) (quickened 9) =
      .ok (.short ⟨"Sorcery Points", 9, 1⟩) := resolveCast_of_short (by decide +kernel)
  refine ⟨refused, ((isReal_of_refused valid_sorcerer).1 _ _ _ _ refused).resolve_right ?_⟩
  rintro ⟨_, uncounted, _⟩
  exact absurd uncounted (by decide +kernel)

/-- An option that no rule prices, on a cantrip. -/
def unpriced : CastOptions := ⟨none, [⟨"Unknown Spell", none, ""⟩], false⟩

/-- It costs nothing, and is refused to who has no sorcery points. -/
theorem not_isReal_unpriced :
    plain.Valid ∧
      plain.resolveCast (.ok .default) (bareSpell 0) unpriced = .ok (.short ⟨"Sorcery Points", 0, 0⟩) ∧
      ¬ (InsufficientResource.mk "Sorcery Points" 0 0).IsReal :=
  ⟨valid_plain, resolveCast_of_short (by decide +kernel), fun more => Int.lt_irrefl 0 more.1⟩

end Character

end HeroSheet
