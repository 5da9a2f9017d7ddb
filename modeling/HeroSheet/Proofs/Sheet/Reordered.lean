import HeroSheet.Proofs.Sheet.Bounds
import HeroSheet.Proofs.Sheet.Composed
import Mathlib.Data.List.Perm.Basic

/-!
Batches in another order. Accepted changes move each counter by what they come to, in whatever order they stand, so
two orders that are both accepted lead to one sheet. Whether they are accepted depends on the order in general, since
every change on the way has to stay within the bounds; changes that only spend are accepted in every order or in none.
-/

namespace HeroSheet

namespace Counters

/-- The counters show the same and list the same slot levels, perhaps in another order. -/
structure Alike (counters other : Counters) : Prop where
  slots : ∀ level, Entries.get? counters.slots level = Entries.get? other.slots level
  counts : ∀ name, counters.count name = other.count name

private theorem isSome_slots_put (counters : Counters) (name : CounterName) (value level : Int) :
    (Entries.get? (counters.put name value).slots level).isSome ↔
      name = .slots level ∨ (Entries.get? counters.slots level).isSome := by
  cases name with
  | slots own =>
    simp only [put, LevelCounts.set, Entries.get?_put, CounterName.slots.injEq]
    split <;> simp [*]
  | pact | resource => simp [put]

end Counters

namespace Character

variable {c : Character} {counters after : Counters} {changes other : List ResourceChange}

theorem names_iff {change : ResourceChange} {name own : CounterName} {maximum : Int}
    (named : c.target change = .ok (own, maximum)) : c.Names change name ↔ own = name := by
  simp [Names, named, Except.toOption]

/-- A batch lists the slot levels that were listed before and those that it names. -/
theorem isSome_slots_of_foldlM (counted : c.Counted counters)
    (accepted : changes.foldlM c.changeCounters counters = .ok after) (level : Int) :
    (Entries.get? after.slots level).isSome ↔
      (∃ change ∈ changes, c.Names change (.slots level)) ∨ (Entries.get? counters.slots level).isSome := by
  induction changes generalizing counters with
  | nil =>
    obtain rfl : counters = after := Except.ok.inj accepted
    simp
  | cons change rest ih =>
    rw [List.foldlM_cons] at accepted
    obtain ⟨between, first, accepted⟩ := bind_eq_ok_iff.mp accepted
    obtain ⟨name, maximum, named, _, _, rfl⟩ := changeCounters_cases counted first
    rw [ih (counted_put counted named _) accepted, Counters.isSome_slots_put, List.exists_mem_cons_iff,
      names_iff named, or_left_comm, or_assoc]

theorem moved_perm (reordered : changes.Perm other) (name : CounterName) :
    c.moved changes name = c.moved other name :=
  (reordered.map _).foldr_eq 0

/-- Two orders of a batch that are both accepted lead to the same counters. -/
theorem alike_of_perm {again : Counters} (reordered : changes.Perm other) (counted : c.Counted counters)
    (accepted : changes.foldlM c.changeCounters counters = .ok after)
    (repeated : other.foldlM c.changeCounters counters = .ok again) : after.Alike again := by
  have counts : ∀ name, after.count name = again.count name := by
    intro name
    rw [count_of_foldlM counted accepted, count_of_foldlM counted repeated, moved_perm reordered]
  refine ⟨fun level => ?_, counts⟩
  have listed : (Entries.get? after.slots level).isSome ↔ (Entries.get? again.slots level).isSome := by
    rw [isSome_slots_of_foldlM counted accepted, isSome_slots_of_foldlM counted repeated]
    simp only [reordered.mem_iff]
  have shown : (Entries.get? after.slots level).getD 0 = (Entries.get? again.slots level).getD 0 :=
    counts (.slots level)
  cases first : Entries.get? after.slots level <;> cases second : Entries.get? again.slots level <;>
    simp_all

/-- The sheets are the same, but for the order in which slot levels are listed. -/
structure Alike (c d : Character) : Prop where
  slots : ∀ level, Entries.get? c.spellSlots.current level = Entries.get? d.spellSlots.current level
  others : { c with spellSlots := { c.spellSlots with current := [] } } =
    { d with spellSlots := { d.spellSlots with current := [] } }

private theorem alike_withCounters {again : Counters} (counted : c.Counted after) (recounted : c.Counted again)
    (alike : after.Alike again) : (c.withCounters after).Alike (c.withCounters again) := by
  refine ⟨alike.slots, ?_⟩
  have resources : (c.withCounters after).resources = (c.withCounters again).resources := by
    rw [resources_withCounters counted, resources_withCounters recounted]
    refine List.map_congr_left fun r _ => ?_
    rw [alike.counts]
  have pact : after.pact = again.pact := alike.counts .pact
  calc { c.withCounters after with spellSlots := { (c.withCounters after).spellSlots with current := [] } }
      = { c with
          spellSlots := { c.spellSlots with current := [], pactCurrent := after.pact }
          resources := (c.withCounters after).resources } := rfl
    _ = { c.withCounters again with
          spellSlots := { (c.withCounters again).spellSlots with current := [] } } := by
      rw [pact, resources]
      rfl

section Spending

/-- No counter stands below zero, and none that a change can name stands above its maximum. -/
structure Within (c : Character) (counters : Counters) : Prop where
  counted : c.Counted counters
  low : ∀ name, 0 ≤ counters.count name
  high : ∀ {change name maximum}, c.target change = .ok (name, maximum) → counters.count name ≤ maximum

private theorem within_counters (valid : c.Valid) (distinct : (c.resources.map Resource.key).Nodup) :
    c.Within c.counters := by
  have fits := fits_counters valid (countsAgree_of_nodup distinct)
  refine ⟨fits.counted, fun name => ?_, fun named => ?_⟩
  · cases name with
    | slots level => exact (fits.slots level).1
    | pact => exact fits.pact.1
    | resource key =>
      cases shown : c.counters.resource? key with
      | none => simp [Counters.count, shown]
      | some count =>
        obtain ⟨r, member, rfl⟩ := (fits.counted key).mp (by simp [shown])
        exact (fits.resources r member).1
  · rcases target_cases named with ⟨level, _, _, rfl, rfl⟩ | ⟨_, rfl, rfl⟩ | ⟨r, _, found, rfl, rfl⟩
    · exact (fits.slots level).2
    · exact fits.pact.2
    · exact (fits.resources r (mem_of_findResource? found)).2

/-- A change that spends what is there leaves counters within their bounds. -/
theorem Within.put (within : c.Within counters) {change : ResourceChange} {name : CounterName} {maximum : Int}
    (named : c.target change = .ok (name, maximum)) (spends : change.delta ≤ 0)
    (enough : 0 ≤ counters.count name + change.delta) :
    c.Within (counters.put name (counters.count name + change.delta)) := by
  refine ⟨counted_put within.counted named _, fun own => ?_, fun target => ?_⟩
  · rw [Counters.count_put]
    split
    · exact enough
    · exact within.low own
  · have bound := within.high target
    rw [Counters.count_put]
    split
    · rename_i same
      subst same
      omega
    · exact bound

private theorem moved_nonpos (spends : ∀ change ∈ changes, change.delta ≤ 0) (name : CounterName) :
    c.moved changes name ≤ 0 := by
  induction changes with
  | nil => exact Int.le_refl 0
  | cons change rest ih =>
    have first := spends change List.mem_cons_self
    have later := ih fun own member => spends own (List.mem_cons_of_mem change member)
    rw [moved_cons]
    split <;> omega

/-- Every change names a counter, and no counter has less than the changes take from it. -/
structure Affords (c : Character) (counters : Counters) (changes : List ResourceChange) : Prop where
  named : ∀ change ∈ changes, ∃ counter, c.target change = .ok counter
  enough : ∀ name, 0 ≤ counters.count name + c.moved changes name

theorem Affords.perm (affords : c.Affords counters changes) (reordered : changes.Perm other) :
    c.Affords counters other := by
  refine ⟨fun change member => affords.named change (reordered.mem_iff.mpr member), fun name => ?_⟩
  rw [← moved_perm reordered]
  exact affords.enough name

theorem affords_cons_iff {change : ResourceChange} {name : CounterName} {maximum : Int}
    (named : c.target change = .ok (name, maximum)) :
    c.Affords counters (change :: changes) ↔
      c.Affords (counters.put name (counters.count name + change.delta)) changes := by
  have same : ∀ own, (counters.put name (counters.count name + change.delta)).count own + c.moved changes own =
      counters.count own + c.moved (change :: changes) own := by
    intro own
    rw [moved_cons, Counters.count_put]
    simp only [names_iff named]
    split
    · rename_i here
      subst here
      omega
    · omega
  constructor
  · intro affords
    refine ⟨(List.forall_mem_cons.mp affords.named).2, fun own => ?_⟩
    rw [same]
    exact affords.enough own
  · intro affords
    refine ⟨List.forall_mem_cons.mpr ⟨⟨_, named⟩, affords.named⟩, fun own => ?_⟩
    rw [← same]
    exact affords.enough own

/-- Changes that only spend are accepted exactly when the counters can afford all of them. -/
theorem exists_foldlM_iff_affords (within : c.Within counters) (spends : ∀ change ∈ changes, change.delta ≤ 0) :
    (∃ after, changes.foldlM c.changeCounters counters = .ok after) ↔ c.Affords counters changes := by
  induction changes generalizing counters with
  | nil =>
    refine iff_of_true ⟨counters, rfl⟩ ⟨by simp, fun name => ?_⟩
    have low := within.low name
    simpa [moved] using low
  | cons change rest ih =>
    obtain ⟨first, later⟩ := List.forall_mem_cons.mp spends
    constructor
    · rintro ⟨after, accepted⟩
      rw [List.foldlM_cons] at accepted
      obtain ⟨between, step, accepted⟩ := bind_eq_ok_iff.mp accepted
      obtain ⟨name, maximum, named, low, _, rfl⟩ := changeCounters_cases within.counted step
      exact (affords_cons_iff named).mpr ((ih (within.put named first low) later).mp ⟨after, accepted⟩)
    · intro affords
      obtain ⟨⟨name, maximum⟩, named⟩ := affords.named change List.mem_cons_self
      have low : 0 ≤ counters.count name + change.delta := by
        have total := affords.enough name
        have rest := moved_nonpos (c := c) later name
        rw [moved_cons, if_pos ((names_iff named).mpr rfl)] at total
        omega
      have high : counters.count name + change.delta ≤ maximum := by
        have bound := within.high named
        omega
      obtain ⟨after, accepted⟩ :=
        (ih (within.put named first low) later).mpr ((affords_cons_iff named).mp affords)
      refine ⟨after, ?_⟩
      rw [List.foldlM_cons, changeCounters_eq_ok within.counted named low high]
      exact accepted

end Spending

theorem exists_withChanges_iff (c : Character) (changes : List ResourceChange) :
    (∃ after, c.withChanges changes = .ok after) ↔
      ∃ counters, changes.foldlM c.changeCounters c.counters = .ok counters := by
  simp only [withChanges_eq_ok_iff]
  constructor
  · rintro ⟨_, counters, accepted, _⟩
    exact ⟨counters, accepted⟩
  · rintro ⟨counters, accepted⟩
    exact ⟨_, counters, accepted, rfl⟩

/-- Two orders of a batch that are both accepted lead to the same sheet; and where the keys of the resources tell them
apart, a batch that only spends is accepted in every order or in none. -/
theorem withChanges_perm (valid : c.Valid) (reordered : changes.Perm other) :
    (∀ after again, c.withChanges changes = .ok after → c.withChanges other = .ok again → after.Alike again) ∧
      ((c.resources.map Resource.key).Nodup → (∀ change ∈ changes, change.delta ≤ 0) →
        ((∃ after, c.withChanges changes = .ok after) ↔ ∃ again, c.withChanges other = .ok again)) := by
  constructor
  · intro after again accepted repeated
    obtain ⟨counters, batch, rfl⟩ := withChanges_eq_ok_iff.mp accepted
    obtain ⟨recounted, rebatch, rfl⟩ := withChanges_eq_ok_iff.mp repeated
    exact alike_withCounters (c.keeps_counters.foldlM batch).counted (c.keeps_counters.foldlM rebatch).counted
      (alike_of_perm reordered c.counted_counters batch rebatch)
  · intro distinct spends
    have within := within_counters valid distinct
    have others : ∀ change ∈ other, change.delta ≤ 0 := fun change member =>
      spends change (reordered.mem_iff.mpr member)
    rw [exists_withChanges_iff, exists_withChanges_iff, exists_foldlM_iff_affords within spends,
      exists_foldlM_iff_affords within others]
    exact ⟨fun affords => affords.perm reordered, fun affords => affords.perm reordered.symm⟩

/-- A sheet that lists slots of the first level, and keeps count of luck. -/
def lucky : Character :=
  { plain with
    resources := [⟨"Luck", 2, 3, some "luckPoints"⟩]
    spellSlots := ⟨[(1, 2)], [(1, 2), (2, 1)], 0, 0, none⟩ }

/-- Luck is spent under its key and under its name, and two levels are named that the sheet does not list. -/
def outlay : List ResourceChange :=
  [⟨.resource, "luckPoints", -1⟩, ⟨.spellSlot, "level2SpellSlots", 0⟩, ⟨.spellSlot, "level3SpellSlots", 0⟩,
    ⟨.resource, "LUCK", -1⟩]

private theorem valid_lucky : lucky.Valid := by
  refine valid_plain.withPools (fun r member => ?_) ⟨⟨by decide, by decide, by decide⟩, by simp⟩
  rw [List.mem_singleton.mp member]
  exact ⟨by decide, by decide⟩

/-- From back to front the levels are listed the other way round, and nothing else is different. -/
theorem withChanges_perm_lucky :
    ∃ after again, lucky.withChanges outlay = .ok after ∧ lucky.withChanges outlay.reverse = .ok again ∧
      after.spellSlots.current = [(1, 2), (2, 0), (3, 0)] ∧ again.spellSlots.current = [(1, 2), (3, 0), (2, 0)] ∧
      after.Alike again := by
  obtain ⟨alike, accepted⟩ := withChanges_perm valid_lucky outlay.reverse_perm.symm
  obtain ⟨again, repeated⟩ := (accepted (by decide) (by decide)).mp ⟨_, rfl⟩
  refine ⟨_, again, rfl, repeated, rfl, ?_, alike _ again rfl repeated⟩
  exact Except.ok.inj repeated ▸ rfl

/-- A full counter is spent before it is filled up again, and not the other way round. -/
example :
    (lucky.withChanges [⟨.spellSlot, "level1SpellSlots", -1⟩, ⟨.spellSlot, "level1SpellSlots", 1⟩]).toOption.isSome ∧
      (lucky.withChanges [⟨.spellSlot, "level1SpellSlots", 1⟩, ⟨.spellSlot, "level1SpellSlots", -1⟩]).toOption = none := by
  decide +kernel

end Character

end HeroSheet
