import HeroSheet.Proofs.Cast.Offers

/-!
Slots that a cast spends. Each of them is offered for the spell, save at the pact level: there slots are left out
of the offers when they are no more than the pact slots by their maximum, and can be spent all the same once
fewer pact slots are left than slots.
-/

namespace HeroSheet

namespace Character

/-- A slot that a cast of the spell uses is one of those that are offered for the spell and available. -/
def SpendsOnlyOffered (c : Character) (settings : Settings) (spell : Spell) : Prop :=
  ∀ options r usage, c.resolveCast (.ok settings) spell options = .ok (.granted r) →
    r.slotUsed = some usage →
      ∃ offerings, c.slotOfferings settings.defaultPactLevel spell.baseLevel = .ok offerings ∧
        ∃ offering ∈ offerings, offering.available = true ∧ offering.level = usage.level ∧
          offering.isPact = usage.isPact

variable {c : Character} {settings : Settings} {spell : Spell}

section Checked

variable {pactLevel : Option Int} {level : Int}

private theorem hasPactMagic_of_pactCurrent (valid : c.Valid) (left : 1 ≤ c.spellSlots.pactCurrent) :
    c.spellSlots.hasPactMagic = true := by
  have most := valid.slots.bounds.pact.2
  exact decide_eq_true (by omega)

/-- At a level that does not share its slots with the pact pool, slots that are left are counted in full. -/
theorem ordinaryCounts_of_not_shared (apart : (c.spellSlots.hasPactMagic && pactLevel == some level) = false) :
    c.ordinaryCounts level pactLevel = (c.spellSlots.available level, c.spellSlots.maxFor level) := by
  unfold ordinaryCounts
  simp only [apart, Bool.false_eq_true, if_false]

theorem ordinaryCounts_of_shared (level : Int) (magic : c.spellSlots.hasPactMagic = true) :
    c.ordinaryCounts level (some level) =
      (max 0 (c.spellSlots.available level - c.spellSlots.pactCurrent),
        max 0 (c.spellSlots.maxFor level - c.spellSlots.pactMax)) := by
  unfold ordinaryCounts
  simp only [magic, beq_self_eq_true, Bool.and_self, if_true]

/-- The pool of a slot that is left is listed when slots of the pact level are covered together with their
pool. -/
theorem lasting_of_left (valid : c.Valid)
    (covered : pactLevel = some level → c.spellSlots.hasPactMagic = true →
      c.spellSlots.maxFor level ≤ c.spellSlots.pactMax →
        c.spellSlots.available level ≤ c.spellSlots.pactCurrent)
    (left : 1 ≤ (c.ordinaryCounts level pactLevel).1) : 0 < (c.ordinaryCounts level pactLevel).2 := by
  by_cases shared : (c.spellSlots.hasPactMagic && pactLevel == some level) = true
  · obtain ⟨magic, same⟩ := Bool.and_eq_true_iff.mp shared
    obtain rfl := beq_iff_eq.mp same
    have spent := covered rfl magic
    rw [ordinaryCounts_of_shared _ magic] at left ⊢
    simp only at left ⊢
    omega
  · have counts := valid.slots.bounds.count level
    rw [ordinaryCounts_of_not_shared (Bool.eq_false_iff.mpr shared)] at left ⊢
    simp only at left ⊢
    omega

end Checked

private theorem slotLevel_of_available (valid : c.Valid) {level : Int} (left : 0 < c.spellSlots.available level) :
    minSlotLevel ≤ level ∧ level ≤ maxSlotLevel := by
  by_contra outside
  have absent : level ∉ c.spellSlots.current.levels := fun listed =>
    outside (valid.slots.bounds.levels level (List.mem_append_left _ listed))
  have empty : c.spellSlots.available level = 0 := LevelCounts.get_eq_zero absent
  omega

theorem resolveCast_ofLevel (needs : spell.NeedsSlot) {pactLevel : Option Int} {level : Int}
    (known : c.pactLevel settings.defaultPactLevel = .ok pactLevel)
    (bounds : minSlotLevel ≤ level ∧ level ≤ maxSlotLevel) (reaches : spell.baseLevel ≤ level)
    (left : 0 < (c.ordinaryCounts level pactLevel).1) :
    ∃ r, c.resolveCast (.ok settings) spell ⟨some (.ofLevel level), [], false⟩ = .ok (.granted r) ∧
      r.slotUsed = some (.ordinary level spell.baseLevel) := by
  have paid : (SlotUsage.ordinary level spell.baseLevel).payment spell.baseLevel
      (c.ordinaryCounts level pactLevel).1 = .granted (.ordinary level spell.baseLevel) :=
    SlotUsage.payment_of_available reaches left
  have checked := (checkSlot_ordinary level known).trans (congrArg Except.ok paid)
  exact resolveCast_of_checkSlot needs _ rfl rfl rfl (SlotSelection.read_ofLevel bounds.1 bounds.2) checked

/-- A slot that the pact slots cover by maximum, but not by what is left of them, is spent without an offer. -/
theorem not_spendsOnlyOffered (valid : c.Valid) (needs : spell.NeedsSlot) {level : Int}
    (known : c.pactLevel settings.defaultPactLevel = .ok (some level))
    (magic : c.spellSlots.hasPactMagic = true) (reaches : spell.baseLevel ≤ level)
    (covered : c.spellSlots.maxFor level ≤ c.spellSlots.pactMax)
    (uncovered : c.spellSlots.pactCurrent < c.spellSlots.available level) :
    ¬ c.SpendsOnlyOffered settings spell := by
  intro spends
  have positive := valid.slots.bounds.pact.1
  have counts := ordinaryCounts_of_shared level magic
  have left : 0 < (c.ordinaryCounts level (some level)).1 := by
    rw [counts]
    simp only
    omega
  have bounds := slotLevel_of_available valid (Int.lt_of_le_of_lt positive uncovered)
  obtain ⟨r, resolved, used⟩ := resolveCast_ofLevel needs known bounds reaches left
  obtain ⟨offerings, listed, offering, member, _, same, ordinary⟩ := spends _ r _ resolved used
  have offers := (mem_slotOfferings_iff known listed).mp member
  cases offers with
  | pact => cases ordinary
  | @ordinary own _ _ _ lasting =>
    have same : own = level := same
    rw [same, counts] at lasting
    simp only at lasting
    omega

/-- A slot that a check lets pass is one of the offers, if the pact slots do not leave it out. -/
theorem offers_of_payable (valid : c.Valid) {pactLevel : Option Int} {usage : SlotUsage} {spellLevel : Int}
    (known : c.pactLevel settings.defaultPactLevel = .ok pactLevel) (payable : c.Payable pactLevel usage)
    (reaches : spellLevel ≤ usage.level)
    (covered : pactLevel = some usage.level → c.spellSlots.hasPactMagic = true →
      c.spellSlots.maxFor usage.level ≤ c.spellSlots.pactMax →
        c.spellSlots.available usage.level ≤ c.spellSlots.pactCurrent) :
    ∃ offering, c.Offers pactLevel spellLevel offering ∧ offering.available = true ∧
      offering.level = usage.level ∧ offering.isPact = usage.isPact := by
  have available : ∀ {count : Int}, 1 ≤ count → decide (0 < count) = true := by
    intro count left
    exact decide_eq_true (Int.lt_of_lt_of_le Int.zero_lt_one left)
  cases payable with
  | @pact level expected left =>
    have magic := hasPactMagic_of_pactCurrent valid left
    obtain ⟨own, rfl⟩ := Option.isSome_iff_exists.mp (pactLevel_isSome magic known)
    obtain rfl : own = level := expected own rfl
    exact ⟨_, .pact rfl magic reaches, available left, rfl, rfl⟩
  | ordinary low high left =>
    exact ⟨_, .ordinary low high reaches (lasting_of_left valid covered left), available left, rfl, rfl⟩

/-- A cast of the spell spends only what is offered exactly when the pact slots, where their pool covers the
slots of its level by maximum, cover those that are left as well. -/
theorem spendsOnlyOffered_iff (valid : c.Valid) (needs : spell.NeedsSlot) :
    c.SpendsOnlyOffered settings spell ↔
      ∀ level, c.pactLevel settings.defaultPactLevel = .ok (some level) →
        c.spellSlots.hasPactMagic = true → spell.baseLevel ≤ level →
          c.spellSlots.maxFor level ≤ c.spellSlots.pactMax →
            c.spellSlots.available level ≤ c.spellSlots.pactCurrent := by
  constructor
  · intro spends level known magic reaches covered
    by_contra uncovered
    exact not_spendsOnlyOffered valid needs known magic reaches covered (Int.not_le.mp uncovered) spends
  · intro covered options r usage resolved used
    obtain ⟨paid, granted, slot⟩ := payCast_of_slotUsed resolved used
    obtain ⟨selection, level, isPact, _, selected, checked⟩ := checkSlot_of_payCast granted slot
    obtain ⟨low, high⟩ := SlotSelection.bounds_of_read selected
    obtain ⟨pactLevel, known, payable⟩ := payable_of_checkSlot low high checked
    have reaches := reaches_of_checkSlot checked
    obtain ⟨offerings, listed⟩ := exists_slotOfferings spell.baseLevel known
    obtain ⟨offering, offers, available, same, pool⟩ := offers_of_payable valid known payable reaches
      fun own magic => covered usage.level (own ▸ known) magic reaches
    exact ⟨offerings, listed, offering, (mem_slotOfferings_iff known listed).mpr offers, available, same, pool⟩

/-- The pact slots of the sheet are all left, and cover two of its four ordinary slots of that level. -/
theorem spendsOnlyOffered_warlock :
    (warlock 4).Valid ∧ (bareSpell 3).NeedsSlot ∧
      (warlock 4).SpendsOnlyOffered .default (bareSpell 3) := by
  have valid : (warlock 4).Valid := valid_warlock (by decide) (by decide)
  have needs : (bareSpell 3).NeedsSlot := needsSlot_bareSpell (by decide)
  refine ⟨valid, needs, (spendsOnlyOffered_iff valid needs).mpr ?_⟩
  intro level known magic reaches covered
  obtain rfl : 3 = level := Option.some.inj (Except.ok.inj known)
  exact absurd covered (by decide)

/-- A sheet with as many pact slots of the third level as ordinary slots, of which the pact slots are spent. -/
def drained : Character := { plain with spellSlots := ⟨[(3, 2)], [(3, 2)], 0, 2, some 3⟩ }

theorem valid_drained : drained.Valid := by
  have only : ∀ level ∈ LevelCounts.levels [(3, 2)] ++ LevelCounts.levels [(3, 2)], level = 3 := by
    simp [LevelCounts.levels]
  refine valid_plain.withPools (by simp [plain]) ⟨⟨fun level member => ?_, fun level member => ?_, ?_⟩, ?_⟩
  · rw [only level member]
    decide
  · rw [only level member]
    decide
  · simp
  · simp [minSlotLevel, maxSlotLevel]

/-- Its slots of the third level are not offered, and one is spent by a cast that selects that level. -/
theorem not_spendsOnlyOffered_drained :
    drained.Valid ∧ (bareSpell 3).NeedsSlot ∧
      drained.slotOfferings 5 3 = .ok [⟨.pact 3, 3, 0, 2, true, "Pact Magic (level 3)"⟩] ∧
      (∃ r, drained.resolveCast (.ok .default) (bareSpell 3) ⟨some (.ofLevel 3), [], false⟩ = .ok (.granted r) ∧
        r.slotUsed = some (.ordinary 3 3)) ∧
      ¬ drained.SpendsOnlyOffered .default (bareSpell 3) := by
  have needs : (bareSpell 3).NeedsSlot := needsSlot_bareSpell (by decide)
  have known : drained.pactLevel Settings.default.defaultPactLevel = .ok (some 3) := rfl
  refine ⟨valid_drained, needs, by decide +kernel, ?_, ?_⟩
  · exact resolveCast_ofLevel needs known (by decide) (Int.le_refl 3) (by decide)
  · exact not_spendsOnlyOffered valid_drained needs known rfl (Int.le_refl 3) (by decide) (by decide)

end Character

end HeroSheet
