import HeroSheet.Proofs.Cast.Plan
import HeroSheet.Proofs.Sheet.Batches

namespace HeroSheet

private theorem LevelCounts.levels_set {counts : LevelCounts} {level count : Int} (listed : level ∈ counts.levels) :
    (counts.set level count).levels = counts.levels := by
  unfold levels set
  rw [Entries.keys_put]
  exact if_pos listed

/-- How many slots of a pool a cast uses. -/
def slotCost (slot : Option SlotUsage) (name : CounterName) : Int :=
  if slot.map SlotUsage.counter = some name then 1 else 0

theorem SlotUsage.counter_ne_resource (usage : SlotUsage) (key : String) :
    usage.counter ≠ .resource key := by
  unfold counter
  split <;> simp

theorem slotCost_some (usage : SlotUsage) (name : CounterName) :
    slotCost (some usage) name = if usage.counter = name then 1 else 0 := by
  simp [slotCost]

theorem slotCost_resource (slot : Option SlotUsage) (key : String) : slotCost slot (.resource key) = 0 := by
  refine if_neg fun same => ?_
  obtain ⟨usage, _, impossible⟩ := Option.map_eq_some_iff.mp same
  exact usage.counter_ne_resource key impossible

private theorem slotCost_nonneg (slot : Option SlotUsage) (name : CounterName) : 0 ≤ slotCost slot name := by
  unfold slotCost
  split <;> decide

namespace Character

/-- How many points of a resource metamagic uses. -/
def pointsCost (c : Character) (used : List Metamagic) (name : CounterName) : Int :=
  if c.sorceryPoints?.map (fun points => .resource points.key) = some name then Metamagic.total used
  else 0

/-- The keys of the resources tell them apart, and find them. -/
structure KeysFind (c : Character) : Prop where
  distinct : (c.resources.map Resource.key).Nodup
  found : ∀ r ∈ c.resources, c.findResource? r.key = some r

/-- The later state is the earlier one without what the cast costs. -/
structure Pays (c after : Character) (r : CastResolution) : Prop where
  slots : ∀ level, after.spellSlots.available level =
    c.spellSlots.available level - slotCost r.slotUsed (.slots level)
  pact : after.spellSlots.pactCurrent = c.spellSlots.pactCurrent - slotCost r.slotUsed .pact
  resources : after.resources = c.resources.map fun own =>
    if c.sorceryPoints? = some own then own.recount (own.current - Metamagic.total r.metamagicUsed)
    else own
  unraised : ∀ name, after.counters.count name ≤ c.counters.count name
  levels : after.spellSlots.current.levels = c.spellSlots.current.levels
  others : after.uncounted = c.uncounted

/-- The changes of the resolution are accepted, and pay for the cast. -/
def Commits (c : Character) (r : CastResolution) : Prop :=
  ∃ after, c.withChanges r.changes = .ok after ∧ c.Pays after r

variable {c : Character}

theorem mem_of_sorceryPoints? {points : Resource} (counted : c.sorceryPoints? = some points) :
    points ∈ c.resources :=
  List.mem_of_find?_eq_some counted

private theorem available_of_ordinaryCounts {level : Int} {pactLevel : Option Int} (valid : c.Valid)
    (left : 1 ≤ (c.ordinaryCounts level pactLevel).1) : 1 ≤ c.spellSlots.available level := by
  have pact := valid.slots.bounds.pact.1
  unfold ordinaryCounts at left
  simp only at left
  split at left
  · simp only at left
    omega
  · exact left

/-- The change for a slot names the pool of the slot, and there is one left in it. -/
theorem target_slotChange {pactLevel : Option Int} {usage : SlotUsage} (valid : c.Valid)
    (payable : c.Payable pactLevel usage) :
    ∃ maximum, c.target (slotChange usage) = .ok (usage.counter, maximum) ∧
      1 ≤ c.counters.count usage.counter ∧ c.counters.count usage.counter ≤ maximum := by
  cases payable with
  | pact expected left => exact ⟨c.spellSlots.pactMax, rfl, left, valid.slots.bounds.pact.2⟩
  | @ordinary level spellLevel low high left =>
    refine ⟨c.spellSlots.maxFor level, ?_, available_of_ordinaryCounts valid left,
      (valid.slots.bounds.count level).2⟩
    simp [target, slotChange, SlotUsage.ordinary, SlotUsage.counter, slotLevelOf?_slotCounterName low high]

theorem target_points {points : Resource} (keys : c.KeysFind) (counted : c.sorceryPoints? = some points)
    (delta : Int) : c.target ⟨.resource, points.key, delta⟩ = .ok (.resource points.key, points.max) :=
  target_resource _ (keys.found points (mem_of_sorceryPoints? counted))

theorem moved_slot {pactLevel : Option Int} {usage : SlotUsage} (valid : c.Valid)
    (payable : c.Payable pactLevel usage) (name : CounterName) :
    c.moved [slotChange usage] name = -slotCost (some usage) name := by
  obtain ⟨maximum, named, _, _⟩ := target_slotChange valid payable
  rw [moved_singleton named, slotCost_some]
  split <;> rfl

private theorem moved_charges {used : List Metamagic} {charges : List ResourceChange} (keys : c.KeysFind)
    (charged : c.Charges used charges) (name : CounterName) :
    c.moved charges name = -c.pointsCost used name := by
  cases charged with
  | nothing => simp [moved, pointsCost, Metamagic.total]
  | points _ counted enough =>
    rw [moved_singleton (target_points keys counted _)]
    simp only [pointsCost, counted, Option.map_some, Option.some.injEq]
    split <;> simp

private theorem moved_of_plans {defaultLevel : Int} {slot : Option SlotUsage} {used : List Metamagic}
    {changes : List ResourceChange} (valid : c.Valid) (keys : c.KeysFind)
    (plans : c.Plans defaultLevel slot used changes) (name : CounterName) :
    c.moved changes name = -(slotCost slot name + c.pointsCost used name) := by
  obtain ⟨charges, charged, rfl⟩ := plans.charged
  rw [moved_append, moved_charges keys charged]
  cases slot with
  | none => simp [moved, slotCost]
  | some usage =>
    obtain ⟨pactLevel, _, payable⟩ := plans.payable usage rfl
    have slots := moved_slot valid payable name
    simp only [Option.toList_some, List.map_cons, List.map_nil]
    omega

theorem accepted_slot {defaultLevel : Int} {slot : Option SlotUsage} {used : List Metamagic}
    {changes : List ResourceChange} (valid : c.Valid) (plans : c.Plans defaultLevel slot used changes) :
    ∃ counters, (slot.toList.map slotChange).foldlM c.changeCounters c.counters = .ok counters ∧
      c.Counted counters ∧ ∀ key, counters.count (.resource key) = c.counters.count (.resource key) := by
  cases slot with
  | none => exact ⟨c.counters, rfl, c.counted_counters, fun _ => rfl⟩
  | some usage =>
    obtain ⟨pactLevel, _, payable⟩ := plans.payable usage rfl
    obtain ⟨maximum, named, left, within⟩ := target_slotChange valid payable
    have step := changeCounters_eq_ok c.counted_counters named
      (by simp only [slotChange]; omega) (by simp only [slotChange]; omega)
    refine ⟨_, foldlM_singleton step, counted_put c.counted_counters named _, fun key => ?_⟩
    rw [Counters.count_put, if_neg (usage.counter_ne_resource key)]

private theorem accepted_of_plans {defaultLevel : Int} {slot : Option SlotUsage} {used : List Metamagic}
    {changes : List ResourceChange} (valid : c.Valid) (keys : c.KeysFind)
    (plans : c.Plans defaultLevel slot used changes) (owed : 0 ≤ Metamagic.total used) :
    ∃ counters, changes.foldlM c.changeCounters c.counters = .ok counters := by
  obtain ⟨between, paid, counted, kept⟩ := accepted_slot valid plans
  obtain ⟨charges, charged, rfl⟩ := plans.charged
  rw [List.foldlM_append, paid]
  cases charged with
  | nothing => exact ⟨between, rfl⟩
  | @points _ points _ known enough =>
    have member := mem_of_sorceryPoints? known
    have shown : between.count (.resource points.key) = points.current :=
      (kept points.key).trans ((countsAgree_of_nodup keys.distinct).count member)
    have bounds := (valid.resources points member).bounds
    have step := changeCounters_eq_ok counted (target_points keys known (-Metamagic.total used))
      (by rw [shown]; simp only; omega) (by rw [shown]; have := bounds.2; simp only; omega)
    exact ⟨_, foldlM_singleton step⟩

private theorem listed_of_plans {defaultLevel : Int} {slot : Option SlotUsage} {used : List Metamagic}
    {changes : List ResourceChange} (valid : c.Valid) (keys : c.KeysFind)
    (plans : c.Plans defaultLevel slot used changes) {change : ResourceChange} (member : change ∈ changes)
    {level maximum : Int} (named : c.target change = .ok (.slots level, maximum)) :
    level ∈ c.spellSlots.current.levels := by
  obtain ⟨charges, charged, rfl⟩ := plans.charged
  rcases List.mem_append.mp member with fromSlot | fromCharge
  · obtain ⟨usage, used, rfl⟩ := List.mem_map.mp fromSlot
    obtain ⟨pactLevel, _, payable⟩ := plans.payable usage (by simpa using used)
    obtain ⟨_, pool, left, _⟩ := target_slotChange valid payable
    obtain ⟨same, _⟩ := Prod.mk.inj (Except.ok.inj (pool.symm.trans named))
    rw [same] at left
    by_contra absent
    have empty : c.counters.count (.slots level) = 0 := LevelCounts.get_eq_zero absent
    omega
  · cases charged with
    | nothing => cases fromCharge
    | points _ counted enough =>
      cases List.mem_singleton.mp fromCharge
      rw [target_points keys counted] at named
      cases named

theorem levels_of_plans {defaultLevel : Int} {slot : Option SlotUsage} {used : List Metamagic}
    {changes : List ResourceChange} {counters : Counters} (valid : c.Valid) (keys : c.KeysFind)
    (plans : c.Plans defaultLevel slot used changes)
    (accepted : changes.foldlM c.changeCounters c.counters = .ok counters) :
    c.Counted counters ∧ counters.slots.levels = c.spellSlots.current.levels := by
  refine foldlM_changeCounters_induct
    (fun counters => c.Counted counters ∧ counters.slots.levels = c.spellSlots.current.levels)
    (fun change member counters after before step => ?_) ⟨c.counted_counters, rfl⟩ accepted
  obtain ⟨counted, same⟩ := before
  obtain ⟨name, maximum, named, _, _, rfl⟩ := changeCounters_cases counted step
  refine ⟨counted_put counted named _, ?_⟩
  cases name with
  | slots level =>
    have listed := listed_of_plans valid keys plans member named
    exact (LevelCounts.levels_set (by rw [same]; exact listed)).trans same
  | pact => exact same
  | resource key => exact same

theorem pointsCost_resource {used : List Metamagic} {own : Resource} (keys : c.KeysFind)
    (member : own ∈ c.resources) :
    c.pointsCost used (.resource own.key) =
      if c.sorceryPoints? = some own then Metamagic.total used else 0 := by
  unfold pointsCost
  cases known : c.sorceryPoints? with
  | none => rfl
  | some points =>
    have same : points.key = own.key ↔ points = own :=
      ⟨List.inj_on_of_nodup_map keys.distinct (mem_of_sorceryPoints? known) member, congrArg Resource.key⟩
    simp only [Option.map_some, Option.some.injEq, CounterName.resource.injEq, same]

theorem count_of_plans {defaultLevel : Int} {slot : Option SlotUsage} {used : List Metamagic}
    {changes : List ResourceChange} {counters : Counters} (valid : c.Valid) (keys : c.KeysFind)
    (plans : c.Plans defaultLevel slot used changes)
    (accepted : changes.foldlM c.changeCounters c.counters = .ok counters) (name : CounterName) :
    counters.count name = c.counters.count name - (slotCost slot name + c.pointsCost used name) := by
  rw [count_of_foldlM c.counted_counters accepted, moved_of_plans valid keys plans]
  rfl

/-- An accepted plan that gives no points back pays for the cast. -/
theorem pays_of_accepted {defaultLevel : Int} {r : CastResolution} {counters : Counters}
    (valid : c.Valid) (keys : c.KeysFind)
    (plans : c.Plans defaultLevel r.slotUsed r.metamagicUsed r.changes)
    (accepted : r.changes.foldlM c.changeCounters c.counters = .ok counters)
    (owed : 0 ≤ Metamagic.total r.metamagicUsed) : c.Pays (c.withCounters counters) r := by
  obtain ⟨counted, levels⟩ := levels_of_plans valid keys plans accepted
  have count := count_of_plans valid keys plans accepted
  refine ⟨fun level => ?_, ?_, ?_, fun name => ?_, levels, uncounted_withCounters counted⟩
  · have pointless : c.pointsCost r.metamagicUsed (.slots level) = 0 := by simp [pointsCost]
    have slots := count (.slots level)
    rw [pointless, Int.add_zero] at slots
    exact slots
  · have pointless : c.pointsCost r.metamagicUsed .pact = 0 := by simp [pointsCost]
    have pact := count .pact
    rw [pointless, Int.add_zero] at pact
    exact pact
  · rw [resources_withCounters counted]
    refine List.map_congr_left fun own member => ?_
    rw [count, (countsAgree_of_nodup keys.distinct).count member, pointsCost_resource keys member,
      slotCost_resource, Int.zero_add]
    split
    · rfl
    · rw [Int.sub_zero, Resource.recount_current]
  · have slots := slotCost_nonneg r.slotUsed name
    have points : 0 ≤ c.pointsCost r.metamagicUsed name := by
      unfold pointsCost
      split
      · exact owed
      · exact Int.le_refl 0
    rw [count_withCounters counted, count]
    omega

/-- Points that are given back raise their counter. -/
theorem owed_of_pays {defaultLevel : Int} {r : CastResolution} {counters : Counters} (valid : c.Valid)
    (keys : c.KeysFind) (plans : c.Plans defaultLevel r.slotUsed r.metamagicUsed r.changes)
    (accepted : r.changes.foldlM c.changeCounters c.counters = .ok counters)
    (pays : c.Pays (c.withCounters counters) r) : 0 ≤ Metamagic.total r.metamagicUsed := by
  obtain ⟨charges, charged, _⟩ := plans.charged
  cases none : r.metamagicUsed with
  | nil => decide
  | cons first rest =>
    rw [none] at charged
    cases charged with
    | @points _ points _ known enough =>
      have counted := (levels_of_plans valid keys plans accepted).1
      have lower := pays.unraised (.resource points.key)
      rw [count_withCounters counted, count_of_plans valid keys plans accepted, slotCost_resource,
        pointsCost_resource keys (mem_of_sorceryPoints? known), if_pos known, none] at lower
      omega

/-- On a valid sheet whose resources have keys of their own, a cast can be committed as planned exactly
when its metamagic does not give points back. -/
theorem commits_iff {config : Config} {spell : Spell} {options : CastOptions} {r : CastResolution}
    (valid : c.Valid) (keys : c.KeysFind)
    (resolved : c.resolveCast config spell options = .ok (.granted r)) :
    c.Commits r ↔ 0 ≤ Metamagic.total r.metamagicUsed := by
  obtain ⟨settings, _, plans⟩ := plans_of_resolveCast resolved
  constructor
  · rintro ⟨after, accepted, pays⟩
    obtain ⟨counters, batch, rfl⟩ := withChanges_eq_ok_iff.mp accepted
    exact owed_of_pays valid keys plans batch pays
  · intro owed
    obtain ⟨counters, batch⟩ := accepted_of_plans valid keys plans owed
    exact ⟨_, withChanges_eq_ok_iff.mpr ⟨counters, batch, rfl⟩,
      pays_of_accepted valid keys plans batch owed⟩

/-- A sheet with ordinary slots of the third level and sorcery points, none of them full. -/
def sorcerer : Character :=
  { plain with
    resources := [⟨"Sorcery Points", 1, 5, none⟩]
    spellSlots := ⟨[(3, 2)], [(3, 4)], 0, 0, none⟩ }

theorem valid_sorcerer : sorcerer.Valid := by
  refine valid_plain.withPools (fun r member => ?_)
    ⟨⟨by decide, by decide, by decide⟩, by simp⟩
  cases List.mem_singleton.mp member
  exact ⟨by decide, by decide⟩

theorem keysFind_sorcerer : sorcerer.KeysFind :=
  ⟨by decide, by decide +kernel⟩

/-- A cast with a slot of the third level and an option at a cost. -/
def quickened (cost : Int) : CastOptions :=
  ⟨some (.ofLevel 3), [⟨"Quickened Spell", some cost, ""⟩], false⟩

/-- What that cast is paid with. -/
def quickenedPaid (cost : Int) : PaidCast :=
  ⟨"Cast Zap using Level 3 slot + Quickened Spell (" ++ toString cost ++ " SP)", some 3,
    some (.ordinary 3 3), [⟨"Quickened Spell", some cost, ""⟩],
    [⟨.spellSlot, "level3SpellSlots", -1⟩, ⟨.resource, "Sorcery Points", -cost⟩]⟩

def quickenedCast (cost : Int) : CastResolution :=
  ⟨(quickenedPaid cost).text, [], [], (quickenedPaid cost).slot, (quickenedPaid cost).metamagic, false,
    false, (quickenedPaid cost).changes, .done⟩

theorem commits_quickened :
    sorcerer.resolveCast (.ok .default) (bareSpell 3) (quickened 1) = .ok (.granted (quickenedCast 1)) ∧
      sorcerer.Commits (quickenedCast 1) := by
  have resolved : sorcerer.resolveCast (.ok .default) (bareSpell 3) (quickened 1) =
      .ok (.granted (quickenedCast 1)) :=
    resolveCast_bareSpell (quickenedPaid 1) (by decide +kernel) (by decide +kernel) rfl
  exact ⟨resolved, (commits_iff valid_sorcerer keysFind_sorcerer resolved).mpr (by decide)⟩

/-- An option whose cost is below zero raises the points that it should be paid from. -/
theorem not_commits_refund :
    sorcerer.Valid ∧ sorcerer.KeysFind ∧
      sorcerer.resolveCast (.ok .default) (bareSpell 3) (quickened (-3)) =
        .ok (.granted (quickenedCast (-3))) ∧
      ¬ sorcerer.Commits (quickenedCast (-3)) := by
  refine ⟨valid_sorcerer, keysFind_sorcerer,
    resolveCast_bareSpell (quickenedPaid (-3)) (by decide +kernel) (by decide +kernel) rfl, ?_⟩
  rintro ⟨after, accepted, pays⟩
  have raised : (sorcerer.withChanges (quickenedCast (-3)).changes).toOption.map
      (fun after => after.counters.count (.resource "Sorcery Points")) = some 4 := by decide +kernel
  rw [accepted] at raised
  have shown : after.counters.count (.resource "Sorcery Points") = 4 := Option.some.inj raised
  have unraised := pays.unraised (.resource "Sorcery Points")
  rw [shown] at unraised
  exact absurd unraised (by decide)

end Character

end HeroSheet
