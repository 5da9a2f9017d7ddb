import HeroSheet.Proofs.Cast.Commit

namespace HeroSheet

/-- Some effect is one that is to be maintained. -/
def Maintains (effects : List CastEffect) : Prop :=
  ∃ e ∈ effects, e.kind = .concentration ∨ e.kind = .trackReusable

namespace CastResolution

/-- The changes of slots, ordinary ones and pact slots. -/
def slotChanges (r : CastResolution) : List ResourceChange := r.changes.filter fun change => change.kind != .resource

/-- The changes of resources. -/
def pointChanges (r : CastResolution) : List ResourceChange := r.changes.filter fun change => change.kind == .resource

/-- The cast needs no slot, and takes none. -/
structure IsFree (r : CastResolution) (spell : Spell) (options : CastOptions) : Prop where
  exempt : spell.isCantrip = true ∨ spell.isFromItem = true ∨ spell.isFree = true ∨ options.isRecast = true
  unused : r.slotUsed = none
  slots : r.slotChanges = []

/-- The cast takes the slot, which is of a level that reaches the spell. -/
structure PaysWith (r : CastResolution) (spell : Spell) (usage : SlotUsage) : Prop where
  used : r.slotUsed = some usage
  level : 1 ≤ usage.level ∧ usage.level ≤ 9
  reaches : spell.baseLevel ≤ usage.level
  slots : ∃ kind, r.slotChanges = [⟨kind, usage.key, -1⟩] ∧ (kind = .pactSlot ↔ usage.isPact = true)

/-- The cast takes some slot. -/
def IsPaid (r : CastResolution) (spell : Spell) : Prop := ∃ usage, r.PaysWith spell usage

/-- The cast waits for a slot, and takes nothing. -/
structure IsPending (r : CastResolution) : Prop where
  phase : r.phase = .slotSelectionPending
  needs : r.needsSlotSelection = true
  unused : r.slotUsed = none
  changes : r.changes = []
  metamagic : r.metamagicUsed = []

/-- The cast is resolved in one of three ways. If it waits for nothing, its resource changes and its phase are those
that its metamagic and its effects call for. -/
structure Consistent (r : CastResolution) (spell : Spell) (options : CastOptions) : Prop where
  ways : r.IsFree spell options ∨ r.IsPaid spell ∨ r.IsPending
  freeNotPaid : ¬ (r.IsFree spell options ∧ r.IsPaid spell)
  freeNotPending : ¬ (r.IsFree spell options ∧ r.IsPending)
  paidNotPending : ¬ (r.IsPaid spell ∧ r.IsPending)
  charged : ¬ r.IsPending →
    (options.metamagic ≠ [] ↔ ∃ key, r.pointChanges = [⟨.resource, key, -Metamagic.total r.metamagicUsed⟩])
  uncharged : options.metamagic = [] → r.pointChanges = []
  tracked : ¬ r.IsPending → (r.phase = .maintainedEffectTracked ↔ Maintains r.effects)
  done : ¬ r.IsPending → (r.phase = .done ↔ ¬ Maintains r.effects)
  adjudicated : (∃ e ∈ r.effects, e.kind = .manualAdjudication) → r.rolls = []

end CastResolution

section Effects

theorem finalPhase_cases (effects : List CastEffect) :
    (Maintains effects ∧ finalPhase effects = .maintainedEffectTracked) ∨
      (¬ Maintains effects ∧ finalPhase effects = .done) := by
  have decides : effects.any (fun e => e.kind == .concentration || e.kind == .trackReusable) = true ↔
      Maintains effects := by
    simp only [Maintains, List.any_eq_true, Bool.or_eq_true, beq_iff_eq]
  unfold finalPhase
  by_cases maintained : effects.any (fun e => e.kind == .concentration || e.kind == .trackReusable) = true
  · exact Or.inl ⟨decides.mp maintained, if_pos maintained⟩
  · exact Or.inr ⟨mt decides.mpr maintained, if_neg maintained⟩

private theorem finalPhase_ne_pending (effects : List CastEffect) : finalPhase effects ≠ .slotSelectionPending := by
  rcases finalPhase_cases effects with ⟨_, phase⟩ | ⟨_, phase⟩ <;> rw [phase] <;> nofun

private theorem finalPhase_eq_tracked_iff (effects : List CastEffect) :
    finalPhase effects = .maintainedEffectTracked ↔ Maintains effects := by
  rcases finalPhase_cases effects with ⟨maintains, phase⟩ | ⟨none, phase⟩
  · exact iff_of_true phase maintains
  · rw [phase]
    exact iff_of_false nofun none

private theorem finalPhase_eq_done_iff (effects : List CastEffect) :
    finalPhase effects = .done ↔ ¬ Maintains effects := by
  rcases finalPhase_cases effects with ⟨maintains, phase⟩ | ⟨none, phase⟩
  · rw [phase]
    exact iff_of_false nofun (not_not_intro maintains)
  · exact iff_of_true phase none

variable {spell : Spell} {reusable recast tooComplicated : Bool} {e : CastEffect}

private theorem maintained_of_mem_trackingEffects (listed : e ∈ trackingEffects spell reusable recast) :
    e.kind = .concentration ∨ e.kind = .trackReusable := by
  unfold trackingEffects at listed
  rcases List.mem_append.mp listed with member | member
  · split at member
    · exact Or.inl (congrArg CastEffect.kind (List.mem_singleton.mp member))
    · cases member
  · split at member
    · exact Or.inr (congrArg CastEffect.kind (List.mem_singleton.mp member))
    · cases member

/-- Only spells that are too complicated are left to the game master. -/
theorem tooComplicated_of_adjudicated
    (listed : e ∈ trackingEffects spell reusable recast ++ adjudication spell tooComplicated)
    (kind : e.kind = .manualAdjudication) : tooComplicated = true := by
  rcases List.mem_append.mp listed with tracking | own
  · have maintained := maintained_of_mem_trackingEffects tracking
    rw [kind] at maintained
    cases maintained <;> contradiction
  · unfold adjudication at own
    split at own
    · assumption
    · cases own

end Effects

namespace Character

variable {c : Character}

theorem used_of_chargeMetamagic {selected used : List Metamagic} {level : Int} {changes : List ResourceChange}
    (granted : c.chargeMetamagic selected level = .granted (used, changes)) :
    used = selected.map (Metamagic.priced level) := by
  unfold chargeMetamagic at granted
  split at granted
  · rename_i none
    cases granted
    rw [List.isEmpty_iff.mp none]
    rfl
  · simp only at granted
    cases counted : c.sorceryPoints? with
    | none => simp [counted] at granted
    | some points =>
      simp only [counted] at granted
      split at granted
      · cases granted
      · cases granted
        rfl

section Charged

variable {used : List Metamagic} {charges : List ResourceChange}

theorem Charges.kind (charged : c.Charges used charges) : ∀ change ∈ charges, change.kind = .resource := by
  intro change member
  cases charged with
  | nothing => cases member
  | points _ _ _ =>
    cases List.mem_singleton.mp member
    rfl

private theorem Charges.ne_nil_iff (charged : c.Charges used charges) :
    used ≠ [] ↔ ∃ key, charges = [⟨.resource, key, -Metamagic.total used⟩] := by
  cases charged with
  | nothing => exact iff_of_false (not_not_intro rfl) nofun
  | @points _ points chosen _ _ => exact iff_of_true chosen ⟨points.key, rfl⟩

private theorem Charges.eq_nil (charged : c.Charges used charges) (none : used = []) : charges = [] := by
  cases charged with
  | nothing => rfl
  | points chosen _ _ => exact absurd none chosen

end Charged

section Listed

variable {defaultLevel : Int} {slot : Option SlotUsage} {used : List Metamagic} {changes : List ResourceChange}

private theorem slotChange_kind_iff (usage : SlotUsage) :
    (slotChange usage).kind = .pactSlot ↔ usage.isPact = true := by
  unfold slotChange
  cases usage.isPact <;> simp

theorem slotChange_kind_ne (usage : SlotUsage) : (slotChange usage).kind ≠ .resource := by
  unfold slotChange
  cases usage.isPact <;> simp

theorem Plans.slotChanges (plans : c.Plans defaultLevel slot used changes) :
    (changes.filter fun change => change.kind != .resource) = slot.toList.map slotChange := by
  obtain ⟨charges, charged, rfl⟩ := plans.charged
  have slots : ∀ change ∈ slot.toList.map slotChange, (change.kind != .resource) = true := by
    intro change member
    obtain ⟨usage, _, rfl⟩ := List.mem_map.mp member
    exact bne_iff_ne.mpr (slotChange_kind_ne usage)
  have points : ∀ change ∈ charges, ¬ (change.kind != .resource) = true := by
    intro change member
    rw [charged.kind change member]
    decide
  rw [List.filter_append, List.filter_eq_self.mpr slots, List.filter_eq_nil_iff.mpr points, List.append_nil]

theorem Plans.pointChanges (plans : c.Plans defaultLevel slot used changes) :
    c.Charges used (changes.filter fun change => change.kind == .resource) := by
  obtain ⟨charges, charged, rfl⟩ := plans.charged
  have slots : ∀ change ∈ slot.toList.map slotChange, ¬ (change.kind == .resource) = true := by
    intro change member
    obtain ⟨usage, _, rfl⟩ := List.mem_map.mp member
    exact mt beq_iff_eq.mp (slotChange_kind_ne usage)
  have points : ∀ change ∈ charges, (change.kind == .resource) = true := by
    intro change member
    exact beq_iff_eq.mpr (charged.kind change member)
  rw [List.filter_append, List.filter_eq_nil_iff.mpr slots, List.filter_eq_self.mpr points, List.nil_append]
  exact charged

end Listed

section Ways

variable {config : Config} {spell : Spell} {options : CastOptions} {defaultLevel : Int} {castLevel : Option Int}
  {paid : PaidCast} {reusable tooComplicated : Bool} {rolls : List RollRequest}

theorem rolls_of_complicated (rolled : c.castRolls config spell true castLevel = .ok rolls) : rolls = [] :=
  (Except.ok.inj rolled).symm

theorem PaidBy.metamagic_eq_nil_iff (how : c.PaidBy defaultLevel spell options paid) :
    paid.metamagic = [] ↔ options.metamagic = [] := by
  cases how with
  | nothing _ _ charged => rw [used_of_chargeMetamagic charged, List.map_eq_nil_iff]
  | slot _ _ _ _ charged _ _ => rw [used_of_chargeMetamagic charged, List.map_eq_nil_iff]

/-- A cast that is paid for is free or takes a slot, as its payment says. -/
theorem PaidBy.ways (how : c.PaidBy defaultLevel spell options paid) :
    (paid.resolution spell options reusable tooComplicated rolls).IsFree spell options ∨
      (paid.resolution spell options reusable tooComplicated rolls).IsPaid spell := by
  have slots := how.plans.slotChanges
  cases how with
  | nothing exempt unused _ =>
    rw [unused] at slots
    refine Or.inl ⟨?_, unused, slots⟩
    by_contra needed
    rw [freeReason?_eq_none_iff.mpr needed] at exempt
    cases exempt
  | @slot _ level _ usage _ _ _ selected checked _ used _ =>
    obtain ⟨low, high⟩ := SlotSelection.bounds_of_read selected
    rw [← level_of_checkSlot checked] at low high
    rw [used] at slots
    exact Or.inr ⟨usage, used, ⟨low, high⟩, reaches_of_checkSlot checked, _, slots, slotChange_kind_iff usage⟩

theorem phase_resolution_ne_pending :
    (paid.resolution spell options reusable tooComplicated rolls).phase ≠ .slotSelectionPending :=
  finalPhase_ne_pending _

theorem not_isPending_resolution :
    ¬ (paid.resolution spell options reusable tooComplicated rolls).IsPending :=
  fun pending => phase_resolution_ne_pending pending.phase

theorem not_free_and_paid {r : CastResolution} : ¬ (r.IsFree spell options ∧ r.IsPaid spell) := by
  rintro ⟨free, usage, pays⟩
  have none := free.unused
  rw [pays.used] at none
  cases none

theorem isPending_pending : (spell.pending reusable tooComplicated rolls).IsPending :=
  ⟨rfl, rfl, rfl, rfl, rfl⟩

theorem PaidBy.consistent (how : c.PaidBy defaultLevel spell options paid)
    (rolled : c.castRolls config spell tooComplicated castLevel = .ok rolls) :
    (paid.resolution spell options reusable tooComplicated rolls).Consistent spell options where
  ways := how.ways.imp_right Or.inl
  freeNotPaid := not_free_and_paid
  freeNotPending := fun both => not_isPending_resolution both.2
  paidNotPending := fun both => not_isPending_resolution both.2
  charged _ := how.metamagic_eq_nil_iff.not.symm.trans how.plans.pointChanges.ne_nil_iff
  uncharged none := how.plans.pointChanges.eq_nil (how.metamagic_eq_nil_iff.mpr none)
  tracked _ := finalPhase_eq_tracked_iff _
  done _ := finalPhase_eq_done_iff _
  adjudicated := by
    rintro ⟨e, listed, kind⟩
    obtain rfl := tooComplicated_of_adjudicated listed kind
    exact rolls_of_complicated rolled

private theorem consistent_pending (waits : c.payCast defaultLevel spell options = .ok none)
    (rolled : c.castRolls config spell tooComplicated castLevel = .ok rolls) :
    (spell.pending reusable tooComplicated rolls).Consistent spell options where
  ways := Or.inr (Or.inr isPending_pending)
  freeNotPaid := not_free_and_paid
  freeNotPending both := freeReason?_eq_none_iff.mp (freeReason?_of_payCast waits) both.1.exempt
  paidNotPending := by
    rintro ⟨⟨usage, pays⟩, _⟩
    cases pays.used
  charged waiting := absurd isPending_pending waiting
  uncharged _ := rfl
  tracked waiting := absurd isPending_pending waiting
  done waiting := absurd isPending_pending waiting
  adjudicated := by
    rintro ⟨e, listed, kind⟩
    rcases List.mem_cons.mp listed with rfl | others
    · cases kind
    · obtain rfl := tooComplicated_of_adjudicated others kind
      exact rolls_of_complicated rolled

end Ways

/-- Whatever a cast is resolved to is consistent. -/
theorem consistent_of_resolveCast {config : Config} {spell : Spell} {options : CastOptions} {r : CastResolution}
    (resolved : c.resolveCast config spell options = .ok (.granted r)) : r.Consistent spell options := by
  obtain ⟨_, _, _, _, _, _, rolled, ⟨paid, granted, rfl⟩ | ⟨waits, rfl⟩⟩ := resolveCast_cases resolved
  · exact (paidBy_of_payCast granted).consistent rolled
  · exact consistent_pending waits rolled

/-- A cast with metamagic takes a slot of the third level and one sorcery point. -/
theorem consistent_quickened :
    sorcerer.resolveCast (.ok .default) (bareSpell 3) (quickened 1) = .ok (.granted (quickenedCast 1)) ∧
      (quickenedCast 1).Consistent (bareSpell 3) (quickened 1) ∧ (quickenedCast 1).IsPaid (bareSpell 3) := by
  have resolved : sorcerer.resolveCast (.ok .default) (bareSpell 3) (quickened 1) =
      .ok (.granted (quickenedCast 1)) :=
    resolveCast_bareSpell (quickenedPaid 1) (by decide +kernel) (by decide +kernel) rfl
  have consistent := consistent_of_resolveCast resolved
  refine ⟨resolved, consistent, ?_⟩
  rcases consistent.ways with free | paid | pending
  · cases free.unused
  · exact paid
  · cases pending.unused

end Character

end HeroSheet
