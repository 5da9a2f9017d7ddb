import HeroSheet.Proofs.Cast.Commit

/-!
Pools of slots after a cast. Slots of the pact level are counted without the pact slots that are left, so a
pact slot that is spent leaves the ordinary pools alone only where its level has no slots to uncover.
-/

namespace HeroSheet

/-- The offering after the slot has been taken from its pool. -/
def SlotUsage.spend (usage : SlotUsage) (offering : SlotOffering) : SlotOffering :=
  if offering.isPact = usage.isPact ∧ offering.level = usage.level then
    { offering with current := offering.current - 1 }
  else offering

namespace Character

/-- Of the pools that are offered only the one that was paid from has changed, by one slot, and no other
slot has become available. -/
structure PoolsIndependent (c after : Character) (defaultLevel : Int) (usage : SlotUsage) : Prop where
  offerings : ∀ spellLevel, after.slotOfferings defaultLevel spellLevel =
    (c.slotOfferings defaultLevel spellLevel).map (List.map usage.spend)
  ordinary : usage.isPact = true → ∀ pactLevel, c.pactLevel defaultLevel = .ok pactLevel →
    ∀ level, (after.ordinaryCounts level pactLevel).1 ≤ (c.ordinaryCounts level pactLevel).1
  pact : usage.isPact = false → after.spellSlots.pactCurrent = c.spellSlots.pactCurrent

variable {c : Character}

private theorem moved_charges_pool {used : List Metamagic} {charges : List ResourceChange}
    (charged : c.Charges used charges) {name : CounterName} (pool : ∀ key, name ≠ .resource key) :
    c.moved charges name = 0 := by
  refine moved_eq_zero fun change member names => ?_
  cases charged with
  | nothing => cases member
  | points _ _ _ =>
    cases List.mem_singleton.mp member
    cases name with
    | slots level => cases (names_slots_iff.mp names).1
    | pact => cases names_pact_iff.mp names
    | resource key => exact pool key rfl

theorem count_of_plans_pool (name : CounterName) {defaultLevel : Int} {slot : Option SlotUsage} {used : List Metamagic}
    {changes : List ResourceChange} {counters : Counters} (valid : c.Valid)
    (plans : c.Plans defaultLevel slot used changes)
    (accepted : changes.foldlM c.changeCounters c.counters = .ok counters)
    (pool : ∀ key, name ≠ .resource key) :
    counters.count name = c.counters.count name - slotCost slot name := by
  rw [count_of_foldlM c.counted_counters accepted]
  obtain ⟨charges, charged, rfl⟩ := plans.charged
  rw [moved_append, moved_charges_pool charged pool]
  cases slot with
  | none => simp [moved, slotCost]
  | some usage =>
    obtain ⟨pactLevel, _, payable⟩ := plans.payable usage rfl
    have slots := moved_slot valid payable name
    simp only [Option.toList_some, List.map_cons, List.map_nil]
    omega

/-- Who has pact slots casts them at some level. -/
theorem pactLevel_isSome {defaultLevel : Int} {level : Option Int}
    (slots : c.spellSlots.hasPactMagic = true) (known : c.pactLevel defaultLevel = .ok level) :
    level.isSome := by
  unfold pactLevel at known
  split at known
  · cases known
    rfl
  · split at known
    · split at known
      · cases known
        rfl
      · cases known
    · rw [if_pos slots] at known
      cases known
      rfl

variable {counters : Counters} {pactLevel : Option Int} {level own : Int}

theorem ordinaryCounts_withCounters (counters : Counters) (own : Int) (pactLevel : Option Int) :
    (c.withCounters counters).ordinaryCounts own pactLevel =
      if c.spellSlots.hasPactMagic && pactLevel == some own then
        (max 0 (counters.count (.slots own) - counters.count .pact),
          max 0 (c.spellSlots.maxFor own - c.spellSlots.pactMax))
      else (counters.count (.slots own), c.spellSlots.maxFor own) :=
  rfl

private theorem ordinaryCounts_after_ordinary (left : 1 ≤ (c.ordinaryCounts level pactLevel).1)
    (slots : ∀ own, counters.count (.slots own) =
      c.spellSlots.available own - if level = own then 1 else 0)
    (pact : counters.count .pact = c.spellSlots.pactCurrent) (own : Int) :
    (c.withCounters counters).ordinaryCounts own pactLevel =
      ((c.ordinaryCounts own pactLevel).1 - if level = own then 1 else 0,
        (c.ordinaryCounts own pactLevel).2) := by
  rw [ordinaryCounts_withCounters, slots, pact]
  by_cases same : level = own
  · subst same
    unfold ordinaryCounts at left ⊢
    by_cases shared : (c.spellSlots.hasPactMagic && pactLevel == some level) = true
    · simp only [shared, if_true] at left ⊢
      refine Prod.ext ?_ rfl
      simp only
      omega
    · simp only [shared, if_true]
      rfl
  · simp only [if_neg same, Int.sub_zero]
    rfl

theorem ordinaryCounts_after_pact (room : c.spellSlots.available level < c.spellSlots.pactCurrent)
    (slots : ∀ own, counters.count (.slots own) = c.spellSlots.available own)
    (pact : counters.count .pact = c.spellSlots.pactCurrent - 1) (own : Int) :
    (c.withCounters counters).ordinaryCounts own (some level) = c.ordinaryCounts own (some level) := by
  rw [ordinaryCounts_withCounters, slots, pact]
  unfold ordinaryCounts
  by_cases shared : (c.spellSlots.hasPactMagic && some level == some own) = true
  · obtain rfl : level = own := by
      simp only [Bool.and_eq_true, beq_iff_eq, Option.some.injEq] at shared
      exact shared.2
    simp only [shared, if_true]
    refine Prod.ext ?_ rfl
    simp only
    omega
  · simp only [shared]
    rfl

private theorem available_of_ordinaryCounts_after_pact (magic : c.spellSlots.hasPactMagic = true)
    (slots : ∀ own, counters.count (.slots own) = c.spellSlots.available own)
    (pact : counters.count .pact = c.spellSlots.pactCurrent - 1)
    (kept : ((c.withCounters counters).ordinaryCounts level (some level)).1 ≤
      (c.ordinaryCounts level (some level)).1) :
    c.spellSlots.available level < c.spellSlots.pactCurrent := by
  rw [ordinaryCounts_withCounters, slots, pact] at kept
  unfold ordinaryCounts at kept
  simp only [magic, Bool.true_and, beq_self_eq_true, if_true] at kept
  omega

theorem slotOfferings_withCounters {defaultLevel spellLevel : Int} {spend : SlotOffering → SlotOffering}
    (known : c.pactLevel defaultLevel = .ok pactLevel)
    (pact : (c.withCounters counters).pactOffering spellLevel pactLevel =
      (c.pactOffering spellLevel pactLevel).map spend)
    (ordinary : ∀ own, (c.withCounters counters).ordinaryOffering spellLevel pactLevel own =
      (c.ordinaryOffering spellLevel pactLevel own).map spend) :
    (c.withCounters counters).slotOfferings defaultLevel spellLevel =
      (c.slotOfferings defaultLevel spellLevel).map (List.map spend) := by
  have same : (c.withCounters counters).pactLevel defaultLevel = .ok pactLevel := known
  unfold slotOfferings
  rw [same, known]
  simp only [Except.map, List.map_append, List.map_filterMap, pact, ordinary]

private theorem offerings_after_ordinary {defaultLevel spellLevel usageLevel : Int}
    (known : c.pactLevel defaultLevel = .ok pactLevel)
    (left : 1 ≤ (c.ordinaryCounts level pactLevel).1)
    (slots : ∀ own, counters.count (.slots own) =
      c.spellSlots.available own - if level = own then 1 else 0)
    (pact : counters.count .pact = c.spellSlots.pactCurrent) :
    (c.withCounters counters).slotOfferings defaultLevel spellLevel =
      (c.slotOfferings defaultLevel spellLevel).map
        (List.map (SlotUsage.ordinary level usageLevel).spend) := by
  refine slotOfferings_withCounters known ?_ fun own => ?_
  · have same : (c.withCounters counters).spellSlots.pactCurrent = c.spellSlots.pactCurrent := pact
    have magic : (c.withCounters counters).spellSlots.hasPactMagic = c.spellSlots.hasPactMagic := rfl
    have most : (c.withCounters counters).spellSlots.pactMax = c.spellSlots.pactMax := rfl
    cases pactLevel with
    | none => rfl
    | some expected =>
      simp only [pactOffering, same, magic, most]
      split <;> simp [SlotUsage.spend, SlotUsage.ordinary]
  · unfold ordinaryOffering
    rw [ordinaryCounts_after_ordinary left slots pact]
    by_cases same : level = own
    · simp only [same, if_true]
      split <;> simp [SlotUsage.spend, SlotUsage.ordinary]
    · simp only [same, if_false, Int.sub_zero]
      split
      · rfl
      · simp [SlotUsage.spend, SlotUsage.ordinary, Ne.symm same]

private theorem offerings_after_pact {defaultLevel spellLevel : Int}
    (known : c.pactLevel defaultLevel = .ok (some level))
    (room : c.spellSlots.available level < c.spellSlots.pactCurrent)
    (slots : ∀ own, counters.count (.slots own) = c.spellSlots.available own)
    (pact : counters.count .pact = c.spellSlots.pactCurrent - 1) :
    (c.withCounters counters).slotOfferings defaultLevel spellLevel =
      (c.slotOfferings defaultLevel spellLevel).map (List.map (SlotUsage.pact level).spend) := by
  refine slotOfferings_withCounters known ?_ fun own => ?_
  · have same : (c.withCounters counters).spellSlots.pactCurrent = c.spellSlots.pactCurrent - 1 := pact
    have magic : (c.withCounters counters).spellSlots.hasPactMagic = c.spellSlots.hasPactMagic := rfl
    have most : (c.withCounters counters).spellSlots.pactMax = c.spellSlots.pactMax := rfl
    simp only [pactOffering, same, magic, most]
    split <;> simp [SlotUsage.spend, SlotUsage.pact]
  · unfold ordinaryOffering
    rw [ordinaryCounts_after_pact room slots pact]
    simp only
    split
    · rfl
    · simp [SlotUsage.spend, SlotUsage.pact]

private theorem poolsIndependent_ordinary {defaultLevel usageLevel : Int}
    (known : c.pactLevel defaultLevel = .ok pactLevel)
    (left : 1 ≤ (c.ordinaryCounts level pactLevel).1)
    (slots : ∀ own, counters.count (.slots own) =
      c.spellSlots.available own - if level = own then 1 else 0)
    (pact : counters.count .pact = c.spellSlots.pactCurrent) :
    c.PoolsIndependent (c.withCounters counters) defaultLevel (.ordinary level usageLevel) :=
  ⟨fun _ => offerings_after_ordinary known left slots pact, (nomatch ·),
    fun _ => pact⟩

private theorem poolsIndependent_pact_iff {defaultLevel : Int}
    (known : c.pactLevel defaultLevel = .ok (some level)) (magic : c.spellSlots.hasPactMagic = true)
    (slots : ∀ own, counters.count (.slots own) = c.spellSlots.available own)
    (pact : counters.count .pact = c.spellSlots.pactCurrent - 1) :
    c.PoolsIndependent (c.withCounters counters) defaultLevel (.pact level) ↔
      c.spellSlots.available level < c.spellSlots.pactCurrent := by
  constructor
  · intro independent
    exact available_of_ordinaryCounts_after_pact magic slots pact (independent.ordinary rfl _ known level)
  · intro room
    refine ⟨fun _ => offerings_after_pact known room slots pact, fun _ own same level => ?_,
      fun impossible => nomatch impossible⟩
    obtain rfl := Except.ok.inj (known.symm.trans same)
    exact Int.le_of_eq (congrArg Prod.fst (ordinaryCounts_after_pact room slots pact level))

/-- A cast that is paid for with a slot and without metamagic can be committed. However it is paid for, it
leaves the other pools alone exactly when its slot is ordinary or its level has fewer slots left than
there are pact slots. -/
theorem poolsIndependent_iff {settings : Settings} {spell : Spell} {options : CastOptions}
    {r : CastResolution} {usage : SlotUsage} (valid : c.Valid)
    (resolved : c.resolveCast (.ok settings) spell options = .ok (.granted r))
    (used : r.slotUsed = some usage) :
    (r.metamagicUsed = [] → ∃ after, c.withChanges r.changes = .ok after) ∧
      ∀ after, c.withChanges r.changes = .ok after →
        (c.PoolsIndependent after settings.defaultPactLevel usage ↔
          (usage.isPact = true → c.spellSlots.available usage.level < c.spellSlots.pactCurrent)) := by
  obtain ⟨_, ⟨⟩, plans⟩ := plans_of_resolveCast resolved
  rw [used] at plans
  refine ⟨fun bare => ?_, fun after accepted => ?_⟩
  · obtain ⟨counters, batch, _, _⟩ := accepted_slot valid plans
    obtain ⟨charges, charged, same⟩ := plans.charged
    rw [bare] at charged
    cases charged with
    | nothing => exact ⟨_, withChanges_eq_ok_iff.mpr ⟨counters, by simpa [same] using batch, rfl⟩⟩
    | points chosen _ _ => exact absurd rfl chosen
  · obtain ⟨counters, batch, rfl⟩ := withChanges_eq_ok_iff.mp accepted
    have slots := fun own => count_of_plans_pool (.slots own) valid plans batch (by simp)
    have pact := count_of_plans_pool .pact valid plans batch (by simp)
    obtain ⟨pactLevel, known, payable⟩ := plans.payable usage rfl
    cases payable with
    | @ordinary level spellLevel low high left =>
      simp only [slotCost_some, SlotUsage.counter_ordinary, CounterName.slots.injEq] at slots
      simp only [slotCost_some, SlotUsage.counter_ordinary, reduceCtorEq, if_false, Int.sub_zero] at pact
      exact iff_of_true (poolsIndependent_ordinary known left slots pact) (nomatch ·)
    | @pact level expected left =>
      simp only [slotCost_some, SlotUsage.counter_pact, reduceCtorEq, if_false, Int.sub_zero] at slots
      simp only [slotCost_some, SlotUsage.counter_pact, if_true] at pact
      have magic : c.spellSlots.hasPactMagic = true := by
        have most := valid.slots.bounds.pact.2
        exact decide_eq_true (by omega)
      obtain ⟨own, rfl⟩ := Option.isSome_iff_exists.mp (pactLevel_isSome magic known)
      obtain rfl : own = level := expected own rfl
      exact (poolsIndependent_pact_iff known magic slots pact).trans ⟨fun room _ => room, fun room => room rfl⟩

/-- A sheet with pact slots of the third level, and some ordinary slots left at that level. -/
def warlock (left : Int) : Character :=
  { plain with spellSlots := ⟨[(3, left)], [(3, 4)], 2, 2, some 3⟩ }

theorem valid_warlock {left : Int} (low : 0 ≤ left) (high : left ≤ 4) : (warlock left).Valid := by
  refine valid_plain.withPools (by simp [plain]) (.singleLevel (by decide) ⟨low, high⟩ (by decide) ?_)
  simp [minSlotLevel, maxSlotLevel]

/-- A cast with a pact slot. -/
def pactCast : CastOptions := ⟨some (.pact 3), [], false⟩

def pactPaid : PaidCast :=
  ⟨"Cast Zap using Pact Magic (level 3)", some 3, some (.pact 3), [],
    [⟨.pactSlot, pactCounterName, -1⟩]⟩

def pactResolution : CastResolution :=
  ⟨pactPaid.text, [], [], pactPaid.slot, pactPaid.metamagic, false, false, pactPaid.changes, .done⟩

/-- One ordinary slot stays covered by the pact slots, of which there are two. -/
theorem poolsIndependent_warlock :
    (warlock 1).resolveCast (.ok .default) (bareSpell 3) pactCast = .ok (.granted pactResolution) ∧
      ∃ after, (warlock 1).withChanges pactResolution.changes = .ok after ∧
        (warlock 1).PoolsIndependent after Settings.default.defaultPactLevel (.pact 3) := by
  have resolved : (warlock 1).resolveCast (.ok .default) (bareSpell 3) pactCast =
      .ok (.granted pactResolution) :=
    resolveCast_bareSpell pactPaid (by decide +kernel) (by decide +kernel) rfl
  obtain ⟨accepted, independent⟩ :=
    poolsIndependent_iff (valid_warlock (by decide) (by decide)) resolved rfl
  obtain ⟨after, batch⟩ := accepted rfl
  exact ⟨resolved, after, batch, (independent after batch).mpr (by decide)⟩

/-- Of four ordinary slots two are left beside the pact slots, and three when a pact slot is spent. -/
theorem not_poolsIndependent_warlock :
    (warlock 4).Valid ∧
      (warlock 4).resolveCast (.ok .default) (bareSpell 3) pactCast = .ok (.granted pactResolution) ∧
      ∃ after, (warlock 4).withChanges pactResolution.changes = .ok after ∧
        (warlock 4).slotOfferings 5 3 =
          .ok [⟨.pact 3, 3, 2, 2, true, "Pact Magic (level 3)"⟩, ⟨.ofLevel 3, 3, 2, 2, false, "Level 3 slot"⟩] ∧
        after.slotOfferings 5 3 =
          .ok [⟨.pact 3, 3, 1, 2, true, "Pact Magic (level 3)"⟩, ⟨.ofLevel 3, 3, 3, 2, false, "Level 3 slot"⟩] ∧
        ¬ (warlock 4).PoolsIndependent after Settings.default.defaultPactLevel (.pact 3) := by
  have resolved : (warlock 4).resolveCast (.ok .default) (bareSpell 3) pactCast =
      .ok (.granted pactResolution) :=
    resolveCast_bareSpell pactPaid (by decide +kernel) (by decide +kernel) rfl
  refine ⟨valid_warlock (by decide) (by decide), resolved, _, rfl, by decide +kernel, by decide +kernel, ?_⟩
  intro independent
  exact absurd (independent.ordinary rfl (some 3) rfl 3) (by decide +kernel)

end Character

end HeroSheet
