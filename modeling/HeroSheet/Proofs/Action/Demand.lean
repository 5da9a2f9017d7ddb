import HeroSheet.Action.Cost
import HeroSheet.Proofs.Cast.Commit
import HeroSheet.Proofs.Number.Writable
import Mathlib.Algebra.Order.BigOperators.Group.List
import Mathlib.Algebra.Order.Ring.Int
import Mathlib.Data.List.Induction

namespace HeroSheet

open Record

/-- The quantities that an action consumes are not below zero. -/
structure Action.Valid (action : Action) : Prop where
  named : action.name ≠ ""
  costs : ∀ cost ∈ action.costs, 0 ≤ cost.quantity

theorem ActionCost.ensures_read : Ensures ActionCost.read (0 ≤ ·.quantity) := by
  intro d cost accepted
  obtain ⟨fields, built⟩ := record_eq_valid accepted
  simp only [seq_eq_valid, fmap_eq_valid] at built
  obtain ⟨_, quantity, ⟨_, _, ⟨_, _, rfl⟩, _, rfl⟩, least, rfl⟩ := built
  exact (ensures_integerFrom 0).withDefault (by decide) least

theorem Action.ensures_read : Ensures Action.read Action.Valid := by
  intro d action accepted
  obtain ⟨fields, built⟩ := record_eq_valid accepted
  simp only [seq_eq_valid, fmap_eq_valid] at built
  obtain ⟨_, _, ⟨_, _, ⟨_, _, ⟨_, _, ⟨_, _, ⟨_, _, ⟨name, named, rfl⟩, _, rfl⟩, _, rfl⟩, _, rfl⟩, _, rfl⟩, _,
    rfl⟩, costs, rfl⟩ := built
  exact ⟨ensures_nonemptyText.required named, ActionCost.ensures_read.list.withDefault (by simp) costs⟩

namespace Character

/-- The resource has to pay the cost: its key finds the resource, and is not paid for elsewhere. -/
def Owes (c : Character) (cost : ActionCost) (r : Resource) : Prop :=
  ∃ key ∈ cost.variableName, key ≠ "" ∧ key ∉ separateCosts ∧ c.costResource? key = some r

instance (c : Character) (cost : ActionCost) (r : Resource) : Decidable (c.Owes cost r) :=
  inferInstanceAs (Decidable (∃ key ∈ cost.variableName, _))

/-- What the costs of an action come to for one resource. -/
def demand (c : Character) (action : Action) (r : Resource) : Int :=
  (action.costs.map fun cost => if c.Owes cost r then cost.quantity else 0).sum

/-- Every resource can meet what the action demands of it. -/
def CanPay (c : Character) (action : Action) : Prop := ∀ r ∈ c.resources, c.demand action r ≤ r.current

/-- The character after every resource has met its demand. -/
def paying (c : Character) (action : Action) : Character :=
  { c with resources := c.resources.map fun r => r.recount (r.current - c.demand action r) }

/-- A plan takes from each resource exactly what an action demands of it, when all of them can pay; or else it is
refused for one that cannot. -/
structure PlansExactly (c : Character) (action : Action) : Prop where
  paid : c.CanPay action → ∃ changes, c.planAction action = .granted changes ∧
    c.applyChanges changes = .ok (c.paying action)
  refused : ¬ c.CanPay action → ∃ r ∈ c.resources, r.current < c.demand action r ∧
    c.planAction action = .short ⟨r.name, c.demand action r, r.current⟩

/-- The total that is recorded under a key, zero when there is none. -/
def totalOf (totals : List (String × Resource × Int)) (key : String) : Int :=
  ((Entries.get? totals key).map (·.2)).getD 0

/-- What costs come to for the resources with one key. -/
def owed (c : Character) (costs : List DeclaredCost) (key : String) : Int :=
  (costs.map fun cost =>
    if (c.chargedResource? cost).map Resource.key = some key then cost.quantity else 0).sum

variable {c : Character}

theorem mem_of_costResource? {key : String} {r : Resource} (found : c.costResource? key = some r) :
    r ∈ c.resources := by
  rcases Option.or_eq_some_iff.mp found with direct | ⟨_, flexible⟩
  · exact mem_of_findResource? direct
  · split at flexible
    · exact List.mem_of_find?_eq_some flexible
    · cases flexible

theorem chargedResource?_eq_some {cost : DeclaredCost} {r : Resource}
    (charged : c.chargedResource? cost = some r) : r ∈ c.resources ∧ 0 < cost.quantity := by
  unfold chargedResource? at charged
  split at charged
  · rename_i charges
    simp only [DeclaredCost.isCharged, Bool.and_eq_true, Bool.not_eq_true', Bool.or_eq_false_iff,
      decide_eq_false_iff_not, Int.not_le] at charges
    exact ⟨mem_of_costResource? charged, charges.1.2⟩
  · cases charged

section Demands

variable {costs : List DeclaredCost}

theorem demands_concat_of_none {cost : DeclaredCost} (free : c.chargedResource? cost = none) :
    c.demands (costs ++ [cost]) = c.demands costs := by
  rw [demands, List.foldl_append, List.foldl_cons, List.foldl_nil, free]
  rfl

theorem demands_concat_of_some {cost : DeclaredCost} {r : Resource}
    (charged : c.chargedResource? cost = some r) :
    c.demands (costs ++ [cost]) =
      Entries.put (c.demands costs) r.key (r, totalOf (c.demands costs) r.key + cost.quantity) := by
  rw [demands, List.foldl_append, List.foldl_cons, List.foldl_nil, charged]
  rfl

theorem nodup_keys_demands (costs : List DeclaredCost) : ((c.demands costs).map Prod.fst).Nodup := by
  induction costs using List.reverseRecOn with
  | nil => exact List.nodup_nil
  | append_singleton costs cost ih =>
    cases charged : c.chargedResource? cost with
    | none => rwa [demands_concat_of_none charged]
    | some r =>
      rw [demands_concat_of_some charged]
      exact Entries.nodup_keys_put ih r.key _

/-- Each demand is on a resource of the sheet, under its key. -/
theorem resource_of_mem_demands {e : String × Resource × Int} (member : e ∈ c.demands costs) :
    e.2.1 ∈ c.resources ∧ e.2.1.key = e.1 := by
  induction costs using List.reverseRecOn with
  | nil => cases member
  | append_singleton costs cost ih =>
    cases charged : c.chargedResource? cost with
    | none =>
      rw [demands_concat_of_none charged] at member
      exact ih member
    | some r =>
      rw [demands_concat_of_some charged] at member
      rcases Entries.mem_put member with rfl | before
      · exact ⟨(chargedResource?_eq_some charged).1, rfl⟩
      · exact ih before

private theorem totalOf_put (totals : List (String × Resource × Int)) (key other : String) (r : Resource)
    (total : Int) :
    totalOf (Entries.put totals key (r, total)) other = if key = other then total else totalOf totals other := by
  unfold totalOf
  rw [Entries.get?_put]
  split <;> rfl

theorem totalOf_demands (costs : List DeclaredCost) (key : String) :
    totalOf (c.demands costs) key = c.owed costs key := by
  induction costs using List.reverseRecOn with
  | nil => rfl
  | append_singleton costs cost ih =>
    have split : c.owed (costs ++ [cost]) key = c.owed costs key +
        if (c.chargedResource? cost).map Resource.key = some key then cost.quantity else 0 := by
      simp [owed]
    rw [split]
    cases charged : c.chargedResource? cost with
    | none => simp [demands_concat_of_none charged, ih]
    | some r =>
      rw [demands_concat_of_some charged, totalOf_put]
      by_cases same : r.key = key <;> simp [same, ih]

private theorem total_of_mem_demands {e : String × Resource × Int} (member : e ∈ c.demands costs) :
    e.2.2 = c.owed costs e.1 := by
  rw [← totalOf_demands, totalOf, Entries.get?_of_mem (nodup_keys_demands costs) member]
  rfl

end Demands

/-- Of a cost that is not below zero, a resource owes nothing or is charged with it. -/
theorem chargedResource?_iff {cost : ActionCost} {r : Resource} (consumes : 0 < cost.quantity) :
    c.chargedResource? ⟨cost.statName, cost.variableName.getD "", cost.quantity⟩ = some r ↔ c.Owes cost r := by
  cases named : cost.variableName with
  | none => simp [chargedResource?, Owes, named]
  | some key =>
    have charges : ¬ cost.quantity ≤ 0 := Int.not_le.mpr consumes
    by_cases elsewhere : key ∈ separateCosts <;> by_cases blank : key = "" <;>
      simp [chargedResource?, DeclaredCost.isCharged, Owes, named, charges, elsewhere, blank]

/-- What costs come to for the key of a resource is what the action demands of it. -/
theorem owed_declaredCosts {action : Action} {r : Resource} (keys : c.KeysFind) (sound : action.Valid)
    (member : r ∈ c.resources) : c.owed action.declaredCosts r.key = c.demand action r := by
  unfold owed demand Action.declaredCosts
  rw [List.map_map]
  congr 1
  refine List.map_congr_left fun cost listed => ?_
  have least := sound.costs cost listed
  rw [Function.comp_apply]
  by_cases free : cost.quantity = 0
  · simp only [free, ite_self]
  · have same : (c.chargedResource? ⟨cost.statName, cost.variableName.getD "", cost.quantity⟩).map
        Resource.key = some r.key ↔ c.Owes cost r := by
      rw [← chargedResource?_iff (show 0 < cost.quantity by omega), Option.map_eq_some_iff]
      constructor
      · rintro ⟨own, charged, key⟩
        rwa [List.inj_on_of_nodup_map keys.distinct (chargedResource?_eq_some charged).1 member key] at charged
      · exact fun charged => ⟨r, charged, rfl⟩
    simp only [same]

/-- The changes that pay demands. -/
def payments (due : List (String × Resource × Int)) : List ResourceChange :=
  due.map fun e => ⟨.resource, e.1, -e.2.2⟩

/-- Demands that the resources of the sheet are to meet, each under the key of its resource. -/
structure Due (c : Character) (due : List (String × Resource × Int)) : Prop where
  distinct : (due.map Prod.fst).Nodup
  resources : ∀ e ∈ due, e.2.1 ∈ c.resources ∧ e.2.1.key = e.1

theorem due_demands (costs : List DeclaredCost) : c.Due (c.demands costs) :=
  ⟨nodup_keys_demands costs, fun _ => resource_of_mem_demands⟩

section Payments

variable {due : List (String × Resource × Int)} {counters : Counters}

theorem target_payment (keys : c.KeysFind) (sound : c.Due due) {e : String × Resource × Int} (member : e ∈ due) :
    c.target ⟨.resource, e.1, -e.2.2⟩ = .ok (.resource e.1, e.2.1.max) := by
  obtain ⟨owned, key⟩ := sound.resources e member
  rw [← key]
  exact target_resource _ (keys.found e.2.1 owned)

theorem names_payment (keys : c.KeysFind) (sound : c.Due due) {e : String × Resource × Int} (member : e ∈ due)
    {name : CounterName} : c.Names ⟨.resource, e.1, -e.2.2⟩ name ↔ name = .resource e.1 := by
  rw [Names, target_payment keys sound member]
  simp [Except.toOption, eq_comm]

private theorem totalOf_cons {e : String × Resource × Int} (absent : e.1 ∉ due.map Prod.fst) (key : String) :
    totalOf (e :: due) key = (if e.1 = key then e.2.2 else 0) + totalOf due key := by
  by_cases here : e.1 = key
  · subst here
    simp [totalOf, Entries.get?, Entries.get?_eq_none absent]
  · simp [totalOf, Entries.get?, here]

private theorem moved_payments (keys : c.KeysFind) (sound : c.Due due) (key : String) :
    c.moved (payments due) (.resource key) = -totalOf due key := by
  induction due with
  | nil => rfl
  | cons e rest ih =>
    obtain ⟨absent, distinct⟩ := List.nodup_cons.mp sound.distinct
    have later : c.Due rest := ⟨distinct, fun own member => sound.resources own (List.mem_cons_of_mem e member)⟩
    have first : c.Names ⟨.resource, e.1, -e.2.2⟩ (.resource key) ↔ e.1 = key := by
      rw [names_payment keys sound List.mem_cons_self, CounterName.resource.injEq, eq_comm]
    calc c.moved (payments (e :: rest)) (.resource key)
        = (if e.1 = key then -e.2.2 else 0) + c.moved (payments rest) (.resource key) := by
          rw [payments, List.map_cons, moved_cons]
          simp only [first, payments]
      _ = -totalOf (e :: rest) key := by
          rw [ih later, totalOf_cons absent]
          split <;> omega

private theorem exists_foldlM_payments (valid : c.Valid) (keys : c.KeysFind) (sound : c.Due due)
    (enough : ∀ e ∈ due, 0 ≤ e.2.2 ∧ e.2.2 ≤ e.2.1.current) :
    ∃ after, (payments due).foldlM c.changeCounters c.counters = .ok after := by
  refine exists_foldlM_of_apart c.counted_counters ?_ ?_
  · refine List.pairwise_map.mpr (List.Pairwise.imp_of_mem ?_ (List.pairwise_map.mp sound.distinct))
    intro e later member present different name first second
    rw [names_payment keys sound member] at first
    rw [names_payment keys sound present, first] at second
    exact different (CounterName.resource.inj second)
  · intro change member
    obtain ⟨e, listed, rfl⟩ := List.mem_map.mp member
    obtain ⟨owned, key⟩ := sound.resources e listed
    obtain ⟨least, most⟩ := enough e listed
    have bounds := (valid.resources e.2.1 owned).bounds
    have shown : c.counters.count (.resource e.1) = e.2.1.current := by
      rw [← key]
      exact (countsAgree_of_nodup keys.distinct).count owned
    have full := bounds.2
    refine ⟨.resource e.1, e.2.1.max, target_payment keys sound listed, ?_, ?_⟩ <;>
      simp only [shown] <;> omega

theorem shortfall?_eq_none_iff : shortfall? due = none ↔ ∀ e ∈ due, e.2.2 ≤ e.2.1.current := by
  simp only [shortfall?, Option.map_eq_none_iff, List.find?_eq_none, decide_eq_true_iff, Int.not_lt]

/-- A shortfall is that of some demand. -/
theorem exists_of_shortfall? {shortfall : InsufficientResource} (found : shortfall? due = some shortfall) :
    ∃ e ∈ due, e.2.1.current < e.2.2 ∧ shortfall = ⟨e.2.1.name, e.2.2, e.2.1.current⟩ := by
  obtain ⟨e, first, rfl⟩ := Option.map_eq_some_iff.mp found
  exact ⟨e, List.mem_of_find?_eq_some first, by simpa using List.find?_some first, rfl⟩

private theorem slots_of_payments {after : Counters}
    (accepted : (payments due).foldlM c.changeCounters c.counters = .ok after) :
    c.Counted after ∧ after.slots = c.spellSlots.current ∧ after.pact = c.spellSlots.pactCurrent := by
  refine foldlM_changeCounters_induct
    (fun counters => c.Counted counters ∧ counters.slots = c.spellSlots.current ∧
      counters.pact = c.spellSlots.pactCurrent)
    (fun change member counters after before step => ?_) ⟨c.counted_counters, rfl, rfl⟩ accepted
  obtain ⟨counted, slots, pact⟩ := before
  obtain ⟨e, _, rfl⟩ := List.mem_map.mp member
  obtain ⟨name, maximum, named, _, _, rfl⟩ := changeCounters_cases counted step
  refine ⟨counted_put counted named _, ?_⟩
  obtain ⟨_, kind, _⟩ | ⟨kind, _⟩ | ⟨r, _, _, rfl, _⟩ := target_cases named
  · cases kind
  · cases kind
  · exact ⟨slots, pact⟩

end Payments

section Plan

variable {action : Action}

theorem demand_nonneg (sound : action.Valid) (r : Resource) : 0 ≤ c.demand action r := by
  refine List.sum_nonneg fun quantity member => ?_
  obtain ⟨cost, listed, rfl⟩ := List.mem_map.mp member
  split
  · exact sound.costs cost listed
  · exact Int.le_refl 0

/-- What the plan takes for a resource is what the action demands of it. -/
theorem total_eq_demand (keys : c.KeysFind) (sound : action.Valid) {e : String × Resource × Int}
    (member : e ∈ c.demands action.declaredCosts) :
    e.2.1 ∈ c.resources ∧ e.2.2 = c.demand action e.2.1 := by
  obtain ⟨owned, key⟩ := resource_of_mem_demands member
  refine ⟨owned, ?_⟩
  rw [total_of_mem_demands member, ← key, owed_declaredCosts keys sound owned]

/-- A resource of which something is demanded stands among the demands. -/
theorem mem_demands_of_pos (keys : c.KeysFind) (sound : action.Valid) {r : Resource} (owned : r ∈ c.resources)
    (demanded : 0 < c.demand action r) : (r.key, r, c.demand action r) ∈ c.demands action.declaredCosts := by
  have total : totalOf (c.demands action.declaredCosts) r.key = c.demand action r := by
    rw [totalOf_demands, owed_declaredCosts keys sound owned]
  cases found : Entries.get? (c.demands action.declaredCosts) r.key with
  | none =>
    rw [totalOf, found] at total
    simp at total
    omega
  | some due =>
    have member := Entries.mem_of_get? found
    obtain ⟨here, same⟩ := total_eq_demand keys sound member
    have key := (resource_of_mem_demands member).2
    obtain rfl : due.1 = r := List.inj_on_of_nodup_map keys.distinct here owned key
    rwa [← same]

/-- An accepted plan takes from each resource what is demanded of it, and changes nothing else. -/
theorem withCounters_of_payments {after : Counters} (keys : c.KeysFind) (sound : action.Valid)
    (accepted : (payments (c.demands action.declaredCosts)).foldlM c.changeCounters c.counters = .ok after) :
    c.withCounters after = c.paying action := by
  obtain ⟨counted, slots, pact⟩ := slots_of_payments accepted
  have resources : (c.withCounters after).resources = (c.paying action).resources := by
    rw [resources_withCounters counted]
    refine List.map_congr_left fun r member => ?_
    rw [count_of_foldlM c.counted_counters accepted, (countsAgree_of_nodup keys.distinct).count member,
      moved_payments keys (due_demands _), totalOf_demands, owed_declaredCosts keys sound member]
    rfl
  calc c.withCounters after
      = { c with
          spellSlots := { c.spellSlots with current := after.slots, pactCurrent := after.pact }
          resources := (c.withCounters after).resources } := rfl
    _ = c.paying action := by
      rw [slots, pact, resources]
      rfl

theorem planAction_of_canPay (valid : c.Valid) (keys : c.KeysFind) (sound : action.Valid)
    (enough : c.CanPay action) :
    c.planAction action = .granted (payments (c.demands action.declaredCosts)) ∧
      c.withChanges (payments (c.demands action.declaredCosts)) = .ok (c.paying action) := by
  have within : ∀ e ∈ c.demands action.declaredCosts, 0 ≤ e.2.2 ∧ e.2.2 ≤ e.2.1.current := by
    intro e member
    obtain ⟨owned, total⟩ := total_eq_demand keys sound member
    rw [total]
    exact ⟨demand_nonneg sound e.2.1, enough e.2.1 owned⟩
  have unrefused : shortfall? (c.demands action.declaredCosts) = none :=
    shortfall?_eq_none_iff.mpr fun e member => (within e member).2
  obtain ⟨after, accepted⟩ := exists_foldlM_payments valid keys (due_demands action.declaredCosts) within
  refine ⟨by rw [planAction, unrefused]; rfl, ?_⟩
  exact withChanges_eq_ok_iff.mpr ⟨after, accepted, (withCounters_of_payments keys sound accepted).symm⟩

private theorem planAction_of_not_canPay (valid : c.Valid) (keys : c.KeysFind) (sound : action.Valid)
    (lacking : ¬ c.CanPay action) :
    ∃ r ∈ c.resources, r.current < c.demand action r ∧
      c.planAction action = .short ⟨r.name, c.demand action r, r.current⟩ := by
  obtain ⟨r, owned, short⟩ : ∃ r ∈ c.resources, r.current < c.demand action r := by
    simpa [CanPay] using lacking
  have bounds := (valid.resources r owned).bounds.1
  have member := mem_demands_of_pos keys sound owned (by omega)
  cases found : shortfall? (c.demands action.declaredCosts) with
  | none => exact absurd short (Int.not_lt.mpr (shortfall?_eq_none_iff.mp found _ member))
  | some shortfall =>
    obtain ⟨e, listed, lacks, rfl⟩ := exists_of_shortfall? found
    obtain ⟨here, total⟩ := total_eq_demand keys sound listed
    rw [total] at lacks found
    exact ⟨e.2.1, here, lacks, by rw [planAction, found]⟩

/-- The plan may be written exactly when all that the action demands may be. -/
theorem payments_writable_iff (keys : c.KeysFind) (sound : action.Valid) :
    ((payments (c.demands action.declaredCosts)).all fun change => isWritable change.delta) = true ↔
      ∀ r ∈ c.resources, isWritable (c.demand action r) = true := by
  have turned (n : Int) : isWritable (-n) = isWritable n := by
    unfold isWritable
    rw [Int.natAbs_neg]
  rw [payments, List.all_map, List.all_eq_true]
  simp only [Function.comp_apply, turned]
  constructor
  · intro written r owned
    rcases (demand_nonneg sound r).eq_or_lt with none | some
    · rw [← none]
      decide
    · exact written _ (mem_demands_of_pos keys sound owned some)
  · intro written e member
    obtain ⟨owned, total⟩ := total_eq_demand keys sound member
    rw [total]
    exact written e.2.1 owned

/-- What is planned is exact, unless all resources can pay and a demand is too long to be written. Then the changes
take just what is demanded, but to apply them fails. -/
theorem plansExactly_iff (valid : c.Valid) (keys : c.KeysFind) (sound : action.Valid) :
    (c.PlansExactly action ↔ (c.CanPay action → ∀ r ∈ c.resources, isWritable (c.demand action r) = true)) ∧
      (¬ c.PlansExactly action → ∃ changes, c.planAction action = .granted changes ∧
        c.takeChanges changes = .ok (c.paying action) ∧ c.applyChanges changes = .error .tooLong) := by
  let changes := payments (c.demands action.declaredCosts)
  have taken (enough : c.CanPay action) : c.takeChanges changes = .ok (c.paying action) := by
    rw [takeChanges, (planAction_of_canPay valid keys sound enough).2]
    rfl
  have applied (enough : c.CanPay action) :
      c.applyChanges changes =
        if changes.all fun change => isWritable change.delta then .ok (c.paying action) else .error .tooLong := by
    rw [applyChanges, taken enough]
    rfl
  have exact_iff : c.PlansExactly action ↔
      (c.CanPay action → ∀ r ∈ c.resources, isWritable (c.demand action r) = true) := by
    constructor
    · rintro ⟨paid, _⟩ enough
      obtain ⟨own, granted, accepted⟩ := paid enough
      obtain rfl := Payment.granted.inj ((planAction_of_canPay valid keys sound enough).1.symm.trans granted)
      rw [applied enough] at accepted
      split at accepted
      next written => exact (payments_writable_iff keys sound).mp written
      next => cases accepted
    · intro written
      refine ⟨fun enough => ⟨changes, (planAction_of_canPay valid keys sound enough).1, ?_⟩,
        planAction_of_not_canPay valid keys sound⟩
      rw [applied enough]
      exact if_pos ((payments_writable_iff keys sound).mpr (written enough))
  refine ⟨exact_iff, fun broken => ?_⟩
  rw [exact_iff, Classical.not_imp] at broken
  obtain ⟨enough, overlong⟩ := broken
  refine ⟨changes, (planAction_of_canPay valid keys sound enough).1, taken enough, ?_⟩
  rw [applied enough]
  exact if_neg fun written => overlong ((payments_writable_iff keys sound).mp written)

end Plan

/-- A sheet with so many uses of channel divinity, and rage under its name alone. -/
def crusader (uses : Int) : Character :=
  { plain with resources := [⟨"Channel Divinity", uses, 3, some "channelDivinityCleric"⟩, ⟨"Rage", 1, 4, none⟩] }

/-- An action that names channel divinity for two classes, rage in other letters, and what is not charged. -/
def rebuke : Action where
  name := "Rebuke"
  description := ""
  actionType := "action"
  attackRoll := none
  damage := none
  damageType := ""
  costs :=
    [ ⟨"Oath", some "channelDivinityPaladin", 1⟩, ⟨"Fury", some "RAGE", 1⟩, ⟨"Faith", some "channelDivinity", 1⟩,
      ⟨"Ki", some "kiPoints", 9⟩, ⟨"Breath", none, 9⟩ ]

private theorem valid_crusader {uses : Int} (within : 0 ≤ uses ∧ uses ≤ 3) : (crusader uses).Valid := by
  refine valid_plain.withPools (fun r member => ?_) SpellSlots.valid_empty
  rcases List.mem_pair.mp member with rfl | rfl
  · exact ⟨by simp, within⟩
  · exact ⟨by decide, by decide⟩

private theorem valid_rebuke : rebuke.Valid := ⟨by decide, by decide⟩

/-- Two uses pay for the action, which names them in two ways; one does not. -/
theorem plansExactly_rebuke :
    (∃ changes, (crusader 2).planAction rebuke = .granted changes ∧
      (crusader 2).applyChanges changes =
        .ok { plain with
          resources := [⟨"Channel Divinity", 0, 3, some "channelDivinityCleric"⟩, ⟨"Rage", 0, 4, none⟩] }) ∧
    (crusader 1).planAction rebuke = .short ⟨"Channel Divinity", 2, 1⟩ := by
  have able : (crusader 2).CanPay rebuke := by unfold CanPay; decide +kernel
  have unable : ¬ (crusader 1).CanPay rebuke := by unfold CanPay; decide +kernel
  have exact : ∀ uses ∈ [(1 : Int), 2], (crusader uses).PlansExactly rebuke := by
    intro uses member
    have keys : (crusader uses).KeysFind := by
      rcases List.mem_pair.mp member with rfl | rfl <;> exact ⟨by decide, by decide +kernel⟩
    have within : 0 ≤ uses ∧ uses ≤ 3 := by
      rcases List.mem_pair.mp member with rfl | rfl <;> decide
    refine (plansExactly_iff (valid_crusader within) keys valid_rebuke).1.mpr fun _ => ?_
    rcases List.mem_pair.mp member with rfl | rfl <;> decide +kernel
  obtain ⟨changes, granted, paid⟩ := (exact 2 (by simp)).paid able
  obtain ⟨r, owned, lacks, refused⟩ := (exact 1 (by simp)).refused unable
  constructor
  · refine ⟨changes, granted, paid.trans (congrArg Except.ok ?_)⟩
    decide +kernel
  · rcases List.mem_pair.mp owned with rfl | rfl
    · exact refused.trans (by decide +kernel)
    · exact absurd lacks (by decide +kernel)

/-- A resource with as many uses as an integer of one digit too many. -/
def fortunate : Character :=
  { plain with
    resources := [⟨"Luck", (power 10 maxIntegerDigits : Nat), (power 10 maxIntegerDigits : Nat), none⟩] }

/-- An action that costs all of them. -/
def wager : Action :=
  { rebuke with name := "Wager", costs := [⟨"Luck", some "Luck", (power 10 maxIntegerDigits : Nat)⟩] }

theorem not_plansExactly_wager :
    fortunate.Valid ∧ fortunate.KeysFind ∧ wager.Valid ∧ fortunate.CanPay wager ∧
      (∃ changes, fortunate.planAction wager = .granted changes ∧
        fortunate.applyChanges changes = .error .tooLong) ∧
      ¬ fortunate.PlansExactly wager := by
  have valid : fortunate.Valid := by
    refine valid_plain.withPools (fun r member => ?_) SpellSlots.valid_empty
    obtain rfl := List.mem_singleton.mp member
    exact ⟨by decide, Int.natCast_nonneg _, Int.le_refl _⟩
  have keys : fortunate.KeysFind := ⟨by decide +kernel, by decide +kernel⟩
  have sound : wager.Valid := by
    refine ⟨by decide, fun cost member => ?_⟩
    obtain rfl := List.mem_singleton.mp member
    exact Int.natCast_nonneg _
  have enough : fortunate.CanPay wager := by unfold CanPay; decide +kernel
  have demanded : ∀ r ∈ fortunate.resources, fortunate.demand wager r = (power 10 maxIntegerDigits : Nat) := by
    decide +kernel
  have overlong : ¬ fortunate.PlansExactly wager := by
    rw [(plansExactly_iff valid keys sound).1]
    intro written
    obtain ⟨r, owned⟩ : ∃ r, r ∈ fortunate.resources := ⟨_, List.mem_cons_self⟩
    have short := isWritable_iff.mp (written enough r owned)
    rw [demanded r owned, Int.natAbs_natCast] at short
    exact Nat.lt_irrefl _ short
  obtain ⟨changes, granted, _, stopped⟩ := (plansExactly_iff valid keys sound).2 overlong
  exact ⟨valid, keys, sound, enough, ⟨changes, granted, stopped⟩, overlong⟩

end Character

end HeroSheet
