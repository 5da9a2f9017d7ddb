import HeroSheet.Action.Recovery
import HeroSheet.Proofs.Action.Demand
import HeroSheet.Proofs.Sheet.Composed

/-!
Recovering slots. What is planned is accepted by the sheet that it was planned for: it brings back one spent slot,
takes one use of channel divinity where the sheet keeps count of it, and changes nothing else. Every call of a run looks
for channel divinity anew and finds the same resource, with one use less for each slot that came back; so there are no
more of them than there were uses.
-/

namespace HeroSheet

namespace Character

/-- The resource that keeps count of channel divinity. -/
def divinity? (c : Character) : Option Resource := c.costResource? channelDivinityStem

/-- A slot of the level is spent, and the level is not too great. -/
def Recoverable (c : Character) (level : Int) : Prop :=
  ∃ greatest, c.maxRecoverableLevel = .ok greatest ∧ level ∈ slotLevels ∧ level ≤ greatest ∧ c.hasSpentSlot level

/-- What brings back a slot. -/
def recoveryChanges (c : Character) (level : Int) : List ResourceChange :=
  ⟨.spellSlot, slotCounterName level, 1⟩ :: c.divinity?.toList.map fun divinity => ⟨.resource, divinity.key, -1⟩

/-- The later state has one more slot of the level and one use less of channel divinity, and is else the same. -/
structure Recovers (c after : Character) (level : Int) : Prop where
  slots : ∀ own, after.spellSlots.available own = c.spellSlots.available own + if own = level then 1 else 0
  within : after.spellSlots.available level ≤ after.spellSlots.maxFor level
  pact : after.spellSlots.pactCurrent = c.spellSlots.pactCurrent
  resources : after.resources = c.resources.map fun r =>
    if c.divinity? = some r then r.recount (r.current - 1) else r
  others : after.uncounted = c.uncounted

/-- The character after a call for a slot of the level; a plan is applied, and a refusal changes nothing. -/
def afterRecovery (c : Character) (level : Int) : Character :=
  match c.planRecovery level with
  | .ok (.granted changes) => c.afterBatch changes
  | _ => c

def afterRecoveries (c : Character) (levels : List Int) : Character := levels.foldl afterRecovery c

/-- How many calls of a run bring back a slot. -/
def recoveries (c : Character) : List Int → Nat
  | [] => 0
  | level :: levels =>
    (match c.planRecovery level with
      | .ok (.granted _) => 1
      | _ => 0) + (c.afterRecovery level).recoveries levels

variable {c after : Character} {level : Int} {changes : List ResourceChange}

theorem mem_of_divinity? {divinity : Resource} (tracked : c.divinity? = some divinity) : divinity ∈ c.resources :=
  mem_of_costResource? tracked

section Plan

private theorem mem_recoverableLevels_iff {levels : List Int} (listed : c.recoverableLevels = .ok levels) :
    level ∈ levels ↔ c.Recoverable level := by
  obtain ⟨greatest, most, rfl⟩ := map_eq_ok_iff.mp listed
  simp [Recoverable, most]

theorem planRecovery_eq_granted_iff :
    c.planRecovery level = .ok (.granted changes) ↔
      c.Recoverable level ∧ (∀ divinity ∈ c.divinity?, 1 ≤ divinity.current) ∧ changes = c.recoveryChanges level := by
  cases most : c.maxRecoverableLevel with
  | error fault => simp [planRecovery, Recoverable, most, bind, Except.bind]
  | ok greatest =>
    obtain ⟨levels, listed⟩ : ∃ levels, c.recoverableLevels = .ok levels := by
      simp [recoverableLevels, most, Except.map]
    have contained : levels.contains level ↔ c.Recoverable level := by
      rw [List.contains_iff_mem, mem_recoverableLevels_iff listed]
    simp only [planRecovery, most, listed, bind, Except.bind, ← contained]
    cases levels.contains level with
    | false => simp
    | true =>
      cases tracked : c.divinity? with
      | none =>
        rw [divinity?] at tracked
        simp [tracked, recoveryChanges, divinity?, eq_comm]
      | some divinity =>
        rw [divinity?] at tracked
        by_cases used : divinity.current < 1
        · simp [tracked, used]
        · simp [tracked, used, recoveryChanges, divinity?, eq_comm, Int.not_lt.mp used]

theorem target_slot (recoverable : c.Recoverable level) :
    c.target ⟨.spellSlot, slotCounterName level, 1⟩ = .ok (.slots level, c.spellSlots.maxFor level) := by
  obtain ⟨_, _, slot, _, _⟩ := recoverable
  have bounds : minSlotLevel ≤ level ∧ level ≤ maxSlotLevel := by
    simp only [slotLevels, List.mem_cons, List.not_mem_nil, or_false] at slot
    simp only [minSlotLevel, maxSlotLevel]
    omega
  simp [target, slotLevelOf?_slotCounterName bounds.1 bounds.2]

theorem target_divinity (keys : c.KeysFind) {divinity : Resource} (tracked : c.divinity? = some divinity) (delta : Int) :
    c.target ⟨.resource, divinity.key, delta⟩ = .ok (.resource divinity.key, divinity.max) :=
  target_resource delta (keys.found divinity (mem_of_divinity? tracked))

/-- How many uses of channel divinity a recovery takes from a counter. -/
def divinityCost (c : Character) (name : CounterName) : Int :=
  if c.divinity?.map (fun divinity => .resource divinity.key) = some name then 1 else 0

theorem divinityCost_resource (keys : c.KeysFind) {own : Resource} (member : own ∈ c.resources) :
    c.divinityCost (.resource own.key) = if c.divinity? = some own then 1 else 0 := by
  unfold divinityCost
  cases tracked : c.divinity? with
  | none => rfl
  | some divinity =>
    have same : divinity.key = own.key ↔ divinity = own :=
      ⟨List.inj_on_of_nodup_map keys.distinct (mem_of_divinity? tracked) member, congrArg Resource.key⟩
    simp only [Option.map_some, Option.some.injEq, CounterName.resource.injEq, same]

theorem moved_recovery (keys : c.KeysFind) (recoverable : c.Recoverable level) (name : CounterName) :
    c.moved (c.recoveryChanges level) name = (if .slots level = name then 1 else 0) - c.divinityCost name := by
  rw [recoveryChanges, ← List.singleton_append, moved_append, moved_singleton (target_slot recoverable)]
  cases tracked : c.divinity? with
  | none => simp [moved, divinityCost, tracked]
  | some divinity =>
    simp only [Option.toList_some, List.map_cons, List.map_nil, divinityCost, tracked, Option.map_some,
      Option.some.injEq, moved_singleton (target_divinity keys tracked (-1))]
    split <;> split <;> rfl

theorem exists_foldlM_recovery (valid : c.Valid) (keys : c.KeysFind) (recoverable : c.Recoverable level)
    (left : ∀ divinity ∈ c.divinity?, 1 ≤ divinity.current) :
    ∃ counters, (c.recoveryChanges level).foldlM c.changeCounters c.counters = .ok counters := by
  obtain ⟨_, _, _, _, spent⟩ := id recoverable
  refine exists_foldlM_of_apart c.counted_counters ?_ ?_
  · refine List.pairwise_cons.mpr ⟨fun change member name slot => ?_, ?_⟩
    · obtain ⟨divinity, listed, rfl⟩ := List.mem_map.mp member
      have named := target_divinity keys (by simpa using listed) (-1)
      rw [Names, target_slot recoverable] at slot
      simp only [Except.toOption, Option.map_some, Option.some.injEq] at slot
      simp [Names, named, Except.toOption, ← slot]
    · cases c.divinity? <;> simp
  · refine List.forall_mem_cons.mpr ⟨⟨_, _, target_slot recoverable, ?_, ?_⟩, fun change member => ?_⟩
    · have low := (valid.slots.bounds.count level).1
      change 0 ≤ c.spellSlots.available level + 1
      omega
    · have room : c.spellSlots.available level < c.spellSlots.maxFor level := by simpa [hasSpentSlot] using spent
      exact room
    · obtain ⟨divinity, listed, rfl⟩ := List.mem_map.mp member
      have tracked : c.divinity? = some divinity := by simpa using listed
      have owned := mem_of_divinity? tracked
      have bounds := (valid.resources divinity owned).bounds
      have shown := (countsAgree_of_nodup keys.distinct).count owned
      have one := left divinity tracked
      have full := bounds.2
      refine ⟨_, _, target_divinity keys tracked (-1), ?_, ?_⟩ <;> simp only [shown] <;> omega

private theorem recovers_of_foldlM {counters : Counters} (keys : c.KeysFind) (recoverable : c.Recoverable level)
    (accepted : (c.recoveryChanges level).foldlM c.changeCounters c.counters = .ok counters) :
    c.Recovers (c.withCounters counters) level := by
  obtain ⟨_, _, _, _, spent⟩ := id recoverable
  have counted := (c.keeps_counters.foldlM accepted).counted
  have count : ∀ name, counters.count name = c.counters.count name + ((if .slots level = name then 1 else 0) -
      c.divinityCost name) := by
    intro name
    rw [count_of_foldlM c.counted_counters accepted, moved_recovery keys recoverable]
  have slots : ∀ own, (c.withCounters counters).spellSlots.available own =
      c.spellSlots.available own + if own = level then 1 else 0 := by
    intro own
    have apart : c.divinityCost (.slots own) = 0 := by simp [divinityCost]
    have shown := count (.slots own)
    simp only [apart, CounterName.slots.injEq, Int.sub_zero, eq_comm (a := level)] at shown
    exact shown
  refine ⟨slots, ?_, ?_, ?_, uncounted_withCounters counted⟩
  · have room : c.spellSlots.available level < c.spellSlots.maxFor level := by simpa [hasSpentSlot] using spent
    rw [slots, if_pos rfl]
    exact room
  · have apart : c.divinityCost .pact = 0 := by simp [divinityCost]
    have shown := count .pact
    rw [if_neg (by simp), apart, Int.sub_zero, Int.add_zero] at shown
    exact shown
  · rw [resources_withCounters counted]
    refine List.map_congr_left fun r member => ?_
    rw [count, (countsAgree_of_nodup keys.distinct).count member, if_neg (by simp), divinityCost_resource keys member]
    split
    · rfl
    · rw [Int.sub_zero, Int.add_zero, Resource.recount_current]

private theorem recovers_of_planRecovery (valid : c.Valid) (keys : c.KeysFind)
    (planned : c.planRecovery level = .ok (.granted changes)) :
    ∃ after, c.withChanges changes = .ok after ∧ c.Recovers after level := by
  obtain ⟨recoverable, left, rfl⟩ := planRecovery_eq_granted_iff.mp planned
  obtain ⟨counters, accepted⟩ := exists_foldlM_recovery valid keys recoverable left
  exact ⟨_, withChanges_eq_ok_iff.mpr ⟨counters, accepted, rfl⟩, recovers_of_foldlM keys recoverable accepted⟩

end Plan

section Run

variable {counters : Counters}

private theorem keysFind_withCounters (counted : c.Counted counters) (keys : c.KeysFind) :
    (c.withCounters counters).KeysFind := by
  constructor
  · rw [resources_withCounters counted, List.map_map]
    exact keys.distinct
  · intro r member
    rw [resources_withCounters counted] at member
    obtain ⟨own, owned, rfl⟩ := List.mem_map.mp member
    rw [Resource.key_recount, findResource?_withCounters counted, keys.found own owned]
    rfl

private theorem divinity?_withCounters (counted : c.Counted counters) :
    (c.withCounters counters).divinity? =
      c.divinity?.map fun r => r.recount (counters.count (.resource r.key)) := by
  unfold divinity? costResource?
  rw [findResource?_withCounters counted, resources_withCounters counted, Option.map_or]
  split
  · rw [List.find?_map]
    rfl
  · rfl

private theorem valid_recoveryChanges (valid : c.Valid) : ∀ change ∈ c.recoveryChanges level, change.Valid := by
  refine List.forall_mem_cons.mpr ⟨?_, fun change member => ?_⟩
  · simp [ResourceChange.Valid, slotCounterName, String.append_eq_empty_iff]
  · obtain ⟨divinity, listed, rfl⟩ := List.mem_map.mp member
    have named := (valid.resources divinity (mem_of_divinity? (by simpa using listed))).named
    unfold ResourceChange.Valid Resource.key
    simp only
    split
    · split
      · exact named
      · simp_all
    · exact named

/-- A call that is refused changes nothing, and one that is granted brings back the slot. -/
theorem afterRecovery_cases (valid : c.Valid) (keys : c.KeysFind) (level : Int) :
    (c.afterRecovery level = c ∧ c.recoveries [level] = 0) ∨
      ∃ counters, (c.recoveryChanges level).foldlM c.changeCounters c.counters = .ok counters ∧ c.Recoverable level ∧
        c.afterRecovery level = c.withCounters counters ∧ c.recoveries [level] = 1 := by
  by_cases planned : ∃ changes, c.planRecovery level = .ok (.granted changes)
  · right
    obtain ⟨changes, granted⟩ := planned
    obtain ⟨recoverable, left, rfl⟩ := planRecovery_eq_granted_iff.mp granted
    obtain ⟨counters, accepted⟩ := exists_foldlM_recovery valid keys recoverable left
    have committed : c.withChanges (c.recoveryChanges level) = .ok (c.withCounters counters) :=
      withChanges_eq_ok_iff.mpr ⟨counters, accepted, rfl⟩
    exact ⟨counters, accepted, recoverable, by simp [afterRecovery, granted, afterBatch, committed],
      by simp [recoveries, granted]⟩
  · left
    have refused : ∀ changes, c.planRecovery level ≠ .ok (.granted changes) := not_exists.mp planned
    constructor
    · unfold afterRecovery
      split
      · exact absurd ‹_› (refused _)
      · rfl
    · unfold recoveries
      split
      · exact absurd ‹_› (refused _)
      · rfl

/-- What a call keeps, and what it takes: a use of channel divinity when it brings back a slot. -/
theorem afterRecovery_keeps (valid : c.Valid) (keys : c.KeysFind) (level : Int) :
    (c.afterRecovery level).Valid ∧ (c.afterRecovery level).KeysFind ∧
      (c.afterRecovery level).divinity? =
        c.divinity?.map fun divinity => divinity.recount (divinity.current - c.recoveries [level]) := by
  rcases afterRecovery_cases valid keys level with ⟨same, none⟩ | ⟨counters, accepted, recoverable, recovered, one⟩
  · rw [same, none]
    refine ⟨valid, keys, ?_⟩
    simp
  · have counted := (c.keeps_counters.foldlM accepted).counted
    have agree := keysAgree_of_nodup keys.distinct
    have fits := fits_foldlM agree (valid_recoveryChanges valid) (fits_counters valid agree.counts) accepted
    rw [recovered, one]
    refine ⟨valid_withCounters valid fits, keysFind_withCounters counted keys, ?_⟩
    rw [divinity?_withCounters counted]
    refine Option.map_congr fun divinity tracked => ?_
    have owned := mem_of_divinity? tracked
    rw [count_of_foldlM c.counted_counters accepted, moved_recovery keys recoverable, agree.counts.count owned,
      divinityCost_resource keys owned, if_pos tracked, if_neg (by simp)]
    rfl

private theorem recoveries_cons (c : Character) (level : Int) (levels : List Int) :
    c.recoveries (level :: levels) = c.recoveries [level] + (c.afterRecovery level).recoveries levels := rfl

/-- A run takes a use of channel divinity for each slot that it brings back. -/
theorem afterRecoveries_keeps (valid : c.Valid) (keys : c.KeysFind) (levels : List Int) :
    (c.afterRecoveries levels).Valid ∧ (c.afterRecoveries levels).KeysFind ∧
      (c.afterRecoveries levels).divinity? =
        c.divinity?.map fun divinity => divinity.recount (divinity.current - c.recoveries levels) := by
  induction levels generalizing c with
  | nil =>
    refine ⟨valid, keys, ?_⟩
    simp [afterRecoveries, recoveries]
  | cons level levels ih =>
    obtain ⟨stillValid, stillFind, first⟩ := afterRecovery_keeps valid keys level
    obtain ⟨lastValid, lastFind, later⟩ := ih stillValid stillFind
    refine ⟨lastValid, lastFind, ?_⟩
    rw [first, Option.map_map] at later
    refine later.trans (Option.map_congr fun divinity _ => ?_)
    simp only [Function.comp_apply, Resource.recount, recoveries_cons c level levels, Resource.mk.injEq, true_and,
      and_true]
    omega

/-- Wherever a run of calls has come to, what is planned is accepted and brings back one slot; and a run brings back no
more slots than there are uses of channel divinity, where they are counted. -/
theorem recoveries_commit (valid : c.Valid) (keys : c.KeysFind) :
    (∀ levels level changes, (c.afterRecoveries levels).planRecovery level = .ok (.granted changes) →
      ∃ after, (c.afterRecoveries levels).withChanges changes = .ok after ∧
        (c.afterRecoveries levels).Recovers after level) ∧
      ∀ divinity ∈ c.divinity?, ∀ levels, c.recoveries levels ≤ divinity.current := by
  constructor
  · intro levels level changes planned
    obtain ⟨stillValid, stillFind, _⟩ := afterRecoveries_keeps valid keys levels
    exact recovers_of_planRecovery stillValid stillFind planned
  · intro divinity tracked levels
    obtain ⟨stillValid, _, later⟩ := afterRecoveries_keeps valid keys levels
    rw [Option.mem_def.mp tracked] at later
    have bounds := (stillValid.resources _ (mem_of_divinity? later)).bounds.1
    simp only [Resource.recount] at bounds
    omega

end Run

/-- A sheet on which slots of the first level are spent, with two uses of channel divinity left. -/
def weary : Character :=
  { plain with
    resources := [⟨"Channel Divinity", 2, 3, some "channelDivinityCleric"⟩]
    spellSlots := ⟨[(1, 0)], [(1, 4)], 0, 0, none⟩ }

private theorem valid_weary : weary.Valid := by
  refine valid_plain.withPools (fun r member => ?_) ⟨⟨by decide, by decide, by decide⟩, by simp⟩
  rw [List.mem_singleton.mp member]
  exact ⟨by decide, by decide⟩

/-- Two of three calls bring back a slot, and the third finds no use left. -/
theorem recoveries_commit_weary :
    weary.recoveries [1, 1, 1] = 2 ∧ (weary.afterRecoveries [1, 1, 1]).spellSlots.available 1 = 2 ∧
      (weary.afterRecoveries [1, 1]).planRecovery 1 = .ok (.short ⟨"Channel Divinity", 1, 0⟩) ∧
      (∃ after, (weary.afterRecoveries [1]).withChanges (weary.recoveryChanges 1) = .ok after ∧
        (weary.afterRecoveries [1]).Recovers after 1) ∧
      ∀ levels, weary.recoveries levels ≤ 2 := by
  have keys : weary.KeysFind := ⟨by decide, by decide +kernel⟩
  obtain ⟨commits, bounded⟩ := recoveries_commit valid_weary keys
  refine ⟨by decide +kernel, by decide +kernel, ?_, commits [1] 1 _ ?_, fun levels => ?_⟩
  · decide +kernel
  · decide +kernel
  · exact Int.ofNat_le.mp (bounded ⟨"Channel Divinity", 2, 3, some "channelDivinityCleric"⟩ (by decide +kernel) levels)

end Character

end HeroSheet
