import HeroSheet.Proofs.Record.Accepted
import HeroSheet.Record.Sheet

namespace HeroSheet

open Record

/-- The name is not empty, and the counter lies between zero and its maximum. -/
structure Resource.Valid (r : Resource) : Prop where
  named : r.name ≠ ""
  bounds : r.InBounds

structure SpellSlots.Valid (slots : SpellSlots) : Prop where
  bounds : slots.InBounds
  pactLevel : ∀ level ∈ slots.pactLevel, minSlotLevel ≤ level ∧ level ≤ maxSlotLevel

structure Spell.Valid (spell : Spell) : Prop where
  named : spell.name ≠ ""
  level : ∀ level ∈ spell.level, 0 ≤ level ∧ level ≤ maxSlotLevel
  damage : ∀ roll ∈ spell.damageRolls, roll.formula ≠ ""

/-- Everything that the record of a character is checked for. -/
structure Character.Valid (c : Character) : Prop where
  named : c.name ≠ ""
  level : 1 ≤ c.level ∧ c.level ≤ 20
  proficiency : 0 ≤ c.proficiencyBonus
  resources : ∀ r ∈ c.resources, r.Valid
  slots : c.spellSlots.Valid
  features : ∀ f ∈ c.features, f.name ≠ ""
  spells : ∀ spell ∈ c.spells, spell.Valid
  armor : ∀ armor ∈ c.armorClass, 0 ≤ armor

theorem Resource.ensures_read : Ensures Resource.read Resource.Valid := by
  intro d r accepted
  obtain ⟨read, unbroken⟩ := keeping_eq_valid.mp accepted
  obtain ⟨fields, built⟩ := record_eq_valid read
  simp only [seq_eq_valid, fmap_eq_valid] at built
  obtain ⟨_, variableName, ⟨_, max, ⟨_, current, ⟨name, named, rfl⟩, low, rfl⟩, _, rfl⟩, _, rfl⟩ := built
  refine ⟨ensures_nonemptyText.required named, (ensures_integerFrom 0).required low,
    Int.not_lt.mp fun above => ?_⟩
  simp [Resource.broken?, above] at unbroken

private theorem SpellSlots.bounds_of_unbroken {slots : SpellSlots} (unbroken : slots.broken? = none)
    (pact : 0 ≤ slots.pactCurrent) : slots.InBounds := by
  obtain ⟨levels, pactUnbroken⟩ := Option.or_eq_none_iff.mp unbroken
  have inside : ∀ level ∈ slots.current.levels ++ slots.maximum.levels,
      (minSlotLevel ≤ level ∧ level ≤ maxSlotLevel) ∧
        0 ≤ slots.available level ∧ slots.available level ≤ slots.maxFor level := by
    intro level member
    have checked : level ∈ slots.checkedLevels := List.mem_mergeSort.mpr member
    have fine := List.findSome?_eq_none_iff.mp levels level checked
    unfold SpellSlots.brokenLevel? at fine
    simp only at fine
    split at fine
    · cases fine
    · split at fine
      · cases fine
      · omega
  refine ⟨fun level member => (inside level member).1, fun level member => (inside level member).2,
    pact, Int.not_lt.mp fun above => ?_⟩
  simp [above] at pactUnbroken

theorem SpellSlots.valid_empty : SpellSlots.empty.Valid :=
  ⟨⟨by simp [SpellSlots.empty, LevelCounts.levels], by simp [SpellSlots.empty, LevelCounts.levels],
    by simp [SpellSlots.empty]⟩, by simp [SpellSlots.empty]⟩

/-- Slots of a single level are valid when their count is. -/
theorem SpellSlots.Valid.singleLevel {level left most pactCurrent pactMax : Int} {pactLevel : Option Int}
    (within : minSlotLevel ≤ level ∧ level ≤ maxSlotLevel) (bounds : 0 ≤ left ∧ left ≤ most)
    (pact : 0 ≤ pactCurrent ∧ pactCurrent ≤ pactMax)
    (own : ∀ level ∈ pactLevel, minSlotLevel ≤ level ∧ level ≤ maxSlotLevel) :
    (SpellSlots.mk [(level, left)] [(level, most)] pactCurrent pactMax pactLevel).Valid := by
  have only : ∀ l ∈ LevelCounts.levels [(level, left)] ++ LevelCounts.levels [(level, most)], l = level := by
    simp [LevelCounts.levels]
  refine ⟨⟨fun l member => ?_, fun l member => ?_, pact⟩, own⟩
  · rw [only l member]
    exact within
  · rw [only l member]
    simpa [SpellSlots.available, SpellSlots.maxFor, LevelCounts.get, Entries.get?] using bounds

theorem SpellSlots.ensures_read : Ensures SpellSlots.read SpellSlots.Valid := by
  intro d slots accepted
  obtain ⟨read, unbroken⟩ := keeping_eq_valid.mp accepted
  obtain ⟨fields, built⟩ := record_eq_valid read
  simp only [seq_eq_valid, fmap_eq_valid] at built
  obtain ⟨_, level, ⟨_, max, ⟨_, current, ⟨_, maximum, ⟨_, _, rfl⟩, _, rfl⟩, low, rfl⟩, _, rfl⟩, within,
    rfl⟩ := built
  refine ⟨bounds_of_unbroken unbroken ((ensures_integerFrom 0).withDefault (by decide) low), ?_⟩
  intro pactLevel member
  have bounds := (ensures_integerWithin 1 (some 9)).optional.withDefault (by simp) within pactLevel member
  exact ⟨bounds.1, bounds.2 9 rfl⟩

theorem DamageRoll.ensures_read : Ensures DamageRoll.read (·.formula ≠ "") := by
  intro d roll accepted
  obtain ⟨fields, built⟩ := record_eq_valid accepted
  simp only [seq_eq_valid, fmap_eq_valid] at built
  obtain ⟨_, damageType, ⟨formula, given, rfl⟩, _, rfl⟩ := built
  exact ensures_nonemptyText.required given

theorem Spell.ensures_read : Ensures Spell.read Spell.Valid := by
  intro d spell accepted
  obtain ⟨fields, built⟩ := record_eq_valid accepted
  simp only [seq_eq_valid, fmap_eq_valid] at built
  obtain ⟨_, _, ⟨_, _, ⟨_, _, ⟨_, _, ⟨_, _, ⟨_, _, ⟨_, _, ⟨_, _, ⟨_, _, ⟨_, _, ⟨_, _, ⟨name, named, rfl⟩,
    level, rfl⟩, _, rfl⟩, _, rfl⟩, _, rfl⟩, _, rfl⟩, _, rfl⟩, damage, rfl⟩, _, rfl⟩, _, rfl⟩, _, rfl⟩, _,
    rfl⟩ := built
  refine ⟨ensures_nonemptyText.required named, ?_,
    DamageRoll.ensures_read.list.withDefault (by simp) damage⟩
  intro base member
  have bounds := (ensures_integerWithin 0 (some 9)).optional.withDefault (by simp) level base member
  exact ⟨bounds.1, bounds.2 9 rfl⟩

theorem Feature.ensures_read : Ensures Feature.read (·.name ≠ "") := by
  intro d f accepted
  obtain ⟨fields, built⟩ := record_eq_valid accepted
  simp only [seq_eq_valid, fmap_eq_valid] at built
  obtain ⟨_, description, ⟨name, named, rfl⟩, _, rfl⟩ := built
  exact ensures_nonemptyText.required named

/-- Every character that is read from a record is valid. -/
theorem Character.ensures_read : Ensures Character.read Character.Valid := by
  intro d c accepted
  cases d with
  | fields fields =>
    obtain ⟨⟨scores, modifiers⟩, _, completed⟩ := Checked.andThen_eq_valid.mp accepted
    obtain ⟨own, built⟩ := record_eq_valid completed
    simp only [seq_eq_valid, fmap_eq_valid] at built
    obtain ⟨_, _, ⟨_, _, ⟨_, _, ⟨_, _, ⟨_, _, ⟨_, _, ⟨_, _, ⟨_, _, ⟨_, _, ⟨_, _, ⟨_, _, ⟨name, named, rfl⟩,
      _, rfl⟩, level, rfl⟩, _, rfl⟩, _, rfl⟩, bonus, rfl⟩, _, rfl⟩, resources, rfl⟩, slots, rfl⟩,
      features, rfl⟩, spells, rfl⟩, armor, rfl⟩ := built
    have levels := (ensures_integerWithin 1 (some 20)).withDefault (by simp) level
    exact {
      named := ensures_nonemptyText.withDefault (by decide) named
      level := ⟨levels.1, levels.2 20 rfl⟩
      proficiency := (ensures_integerFrom 0).withDefault (by decide) bonus
      resources := Resource.ensures_read.list.withDefault (by simp) resources
      slots := SpellSlots.ensures_read.withDefault SpellSlots.valid_empty slots
      features := Feature.ensures_read.list.withDefault (by simp) features
      spells := Spell.ensures_read.list.withDefault (by simp) spells
      armor := (ensures_integerFrom 0).optional.withDefault (by simp) armor }
  | _ => simp [Character.read, Checked.refuse] at accepted

/-- The character of a record without entries. -/
def Character.plain : Character where
  name := "Character"
  className := ""
  level := 1
  abilityScores := Ability.all.map fun ability => (ability, 10)
  abilityModifiers := Ability.all.map fun ability => (ability, 0)
  proficiencyBonus := 2
  bag := []
  resources := []
  spellSlots := .empty
  features := []
  spells := []
  armorClass := none

theorem Character.valid_plain : Character.plain.Valid where
  named := by decide
  level := by decide
  proficiency := by decide
  resources := by simp [Character.plain]
  slots := SpellSlots.valid_empty
  features := by simp [Character.plain]
  spells := by simp [Character.plain]
  armor := by simp [Character.plain]

/-- Resources and slots are checked for themselves. -/
theorem Character.Valid.withPools {c : Character} (valid : c.Valid) {resources : List Resource}
    {slots : SpellSlots} (sound : ∀ r ∈ resources, r.Valid) (bounds : slots.Valid) :
    { c with resources := resources, spellSlots := slots }.Valid :=
  { valid with resources := sound, slots := bounds }

end HeroSheet
