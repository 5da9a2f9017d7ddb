import HeroSheet.Proofs.Sheet.Recount
import HeroSheet.Proofs.Sheet.Valid

/-!
Counters within their bounds. Resources that share a key share a counter, and a batch checks that counter
against the maximum of one of them only; the bounds survive a batch where such resources agree.
-/

namespace HeroSheet

/-- A change that a sheet records names some counter. -/
def ResourceChange.Valid (change : ResourceChange) : Prop := change.key ≠ ""

theorem ResourceChange.ensures_read : Record.Ensures ResourceChange.read ResourceChange.Valid := by
  intro d change accepted
  obtain ⟨fields, built⟩ := Record.record_eq_valid accepted
  simp only [Record.seq_eq_valid, Record.fmap_eq_valid] at built
  obtain ⟨_, delta, ⟨_, key, ⟨kind, _, rfl⟩, named, rfl⟩, _, rfl⟩ := built
  exact Record.ensures_nonemptyText.required named

namespace LevelCounts

theorem get_eq_zero {counts : LevelCounts} {level : Int} (absent : level ∉ counts.levels) :
    counts.get level = 0 := by
  induction counts with
  | nil => rfl
  | cons entry rest ih =>
    simp only [levels, List.map_cons, List.mem_cons, not_or] at absent
    simp only [get, Entries.get?, if_neg (Ne.symm absent.1)]
    exact ih absent.2

private theorem mem_levels_set {counts : LevelCounts} {level own count : Int}
    (member : level ∈ (counts.set own count).levels) : level = own ∨ level ∈ counts.levels := by
  rw [levels, set, Entries.keys_put] at member
  split at member
  · exact Or.inr member
  · exact (List.mem_append.mp member).symm.imp List.mem_singleton.mp id

end LevelCounts

theorem SpellSlots.InBounds.count {slots : SpellSlots} (bounds : slots.InBounds) (level : Int) :
    0 ≤ slots.available level ∧ slots.available level ≤ slots.maxFor level := by
  by_cases listed : level ∈ slots.current.levels ++ slots.maximum.levels
  · exact bounds.counts level listed
  · rw [List.mem_append, not_or] at listed
    simp [available, maxFor, LevelCounts.get_eq_zero listed.1, LevelCounts.get_eq_zero listed.2]

namespace Character

private theorem slotLevelOf?_bounds {key : String} {level : Int} (found : slotLevelOf? key = some level) :
    minSlotLevel ≤ level ∧ level ≤ maxSlotLevel := by
  have member := List.mem_of_find?_eq_some found
  simp only [slotLevels, List.mem_cons, List.not_mem_nil, or_false] at member
  simp only [minSlotLevel, maxSlotLevel]
  omega

theorem slotLevelOf?_slotCounterName {level : Int} (low : minSlotLevel ≤ level)
    (high : level ≤ maxSlotLevel) : slotLevelOf? (slotCounterName level) = some level := by
  have named : ∀ own ∈ slotLevels, slotLevelOf? (slotCounterName own) = some own := by decide +kernel
  refine named level ?_
  simp only [minSlotLevel, maxSlotLevel] at low high
  simp only [slotLevels, List.mem_cons, List.not_mem_nil, or_false]
  omega

/-- Some change can move the counter of this resource. -/
def Movable (c : Character) (r : Resource) : Prop :=
  0 < r.max ∧ ∃ key, key ≠ "" ∧ c.findResource? key = some r

/-- Resources with one key have one count, and are one resource when a change can move it. -/
structure KeysAgree (c : Character) : Prop where
  counts : c.CountsAgree
  movable : ∀ r ∈ c.resources, ∀ other ∈ c.resources, r.key = other.key → c.Movable r → r = other

theorem keysAgree_of_nodup {c : Character} (distinct : (c.resources.map Resource.key).Nodup) :
    c.KeysAgree :=
  ⟨countsAgree_of_nodup distinct, fun _ member _ present same _ =>
    List.inj_on_of_nodup_map distinct member present same⟩

/-- Counters that the sheet of a character can hold. -/
structure Fits (c : Character) (counters : Counters) : Prop where
  counted : c.Counted counters
  levels : ∀ level ∈ counters.slots.levels, minSlotLevel ≤ level ∧ level ≤ maxSlotLevel
  slots : ∀ level, 0 ≤ counters.count (.slots level) ∧
    counters.count (.slots level) ≤ c.spellSlots.maxFor level
  pact : 0 ≤ counters.count .pact ∧ counters.count .pact ≤ c.spellSlots.pactMax
  resources : ∀ r ∈ c.resources, 0 ≤ counters.count (.resource r.key) ∧
    counters.count (.resource r.key) ≤ r.max

variable {c : Character} {counters after : Counters}

theorem fits_counters (valid : c.Valid) (agree : c.CountsAgree) : c.Fits c.counters where
  counted := c.counted_counters
  levels level member := valid.slots.bounds.levels level (List.mem_append_left _ member)
  slots := valid.slots.bounds.count
  pact := valid.slots.bounds.pact
  resources r member := by
    rw [agree.count member]
    exact (valid.resources r member).bounds

theorem valid_withCounters (valid : c.Valid) (fits : c.Fits counters) :
    (c.withCounters counters).Valid where
  named := valid.named
  level := valid.level
  proficiency := valid.proficiency
  resources r member := by
    rw [resources_withCounters fits.counted] at member
    obtain ⟨own, owned, rfl⟩ := List.mem_map.mp member
    exact ⟨(valid.resources own owned).named, fits.resources own owned⟩
  slots := by
    refine ⟨⟨?_, fun level _ => fits.slots level, fits.pact⟩, valid.slots.pactLevel⟩
    intro level member
    rcases List.mem_append.mp member with current | maximum
    · exact fits.levels level current
    · exact valid.slots.bounds.levels level (List.mem_append_right _ maximum)
  features := valid.features
  spells := valid.spells
  armor := valid.armor

private theorem fits_changeCounters (agree : c.KeysAgree) {change : ResourceChange} (sound : change.Valid)
    (fits : c.Fits counters) (accepted : c.changeCounters counters change = .ok after) :
    c.Fits after := by
  obtain ⟨name, maximum, named, low, high, rfl⟩ := changeCounters_cases fits.counted accepted
  have counted := counted_put fits.counted named (counters.count name + change.delta)
  rcases target_cases named with ⟨own, _, found, rfl, rfl⟩ | ⟨_, rfl, rfl⟩ | ⟨r, _, found, rfl, rfl⟩
  · refine ⟨counted, fun level member => ?_, fun level => ?_, fits.pact, fits.resources⟩
    · rcases LevelCounts.mem_levels_set member with rfl | before
      · exact slotLevelOf?_bounds found
      · exact fits.levels level before
    · rw [Counters.count_put]
      split
      · rename_i same
        cases same
        exact ⟨low, high⟩
      · exact fits.slots level
  · exact ⟨counted, fits.levels, fits.slots, ⟨low, high⟩, fits.resources⟩
  · refine ⟨counted, fits.levels, fits.slots, fits.pact, fun other present => ?_⟩
    rw [Counters.count_put]
    split
    · rename_i same
      have owned := mem_of_findResource? found
      have shared : r.key = other.key := CounterName.resource.inj same
      by_cases room : 0 < r.max
      · rw [← agree.movable r owned other present shared ⟨room, change.key, sound, found⟩]
        exact ⟨low, high⟩
      · have bounds := fits.resources other present
        omega
    · exact fits.resources other present

/-- A batch leads from counters that fit to counters that fit. -/
theorem fits_foldlM (agree : c.KeysAgree) {changes : List ResourceChange}
    (sound : ∀ change ∈ changes, change.Valid) (fits : c.Fits counters)
    (accepted : changes.foldlM c.changeCounters counters = .ok after) : c.Fits after :=
  foldlM_changeCounters_induct c.Fits
    (fun change member _ _ before step => fits_changeCounters agree (sound change member) before step)
    fits accepted

end Character

end HeroSheet
