import HeroSheet.Proofs.Sheet.Recount
import HeroSheet.Proofs.Sheet.Valid

namespace HeroSheet

/-- The key of the resource is its variable name. -/
def Resource.HasVariable (r : Resource) : Prop := ∃ name ∈ r.variableName, name ≠ ""

namespace Resource

variable {r : Resource} {name : String}

theorem key_of_variable (held : r.variableName = some name) (present : name ≠ "") : r.key = name := by
  have filled : name.isEmpty = false := Bool.eq_false_iff.mpr fun empty => present (String.isEmpty_iff.mp empty)
  simp [key, held, filled]

private theorem key_of_not_hasVariable (absent : ¬ r.HasVariable) : r.key = r.name := by
  unfold key
  cases held : r.variableName with
  | none => rfl
  | some name =>
    have empty : name = "" := by
      by_contra present
      exact absent ⟨name, held, present⟩
    rw [empty]
    rfl

end Resource

namespace Character

/-- Whatever is changed under the key, the resource moves by that much when its bounds allow it, and all else is as
a batch without changes leaves it. -/
def Moves (c : Character) (key : String) (r : Resource) : Prop :=
  ∃ still front back, c.withChanges [] = .ok still ∧ still.resources = front ++ r :: back ∧
    ∀ delta, c.withChanges [⟨.resource, key, delta⟩] =
      if 0 ≤ r.current + delta ∧ r.current + delta ≤ r.max then
        .ok { still with resources := front ++ r.recount (r.current + delta) :: back }
      else .error (.outOfBounds key r.current r.max delta)

/-- Where just one resource has a key, it is found under this key and moved by what is changed under it. -/
def KeysAddress (c : Character) : Prop :=
  ∀ key r, c.resources.filter (fun own => own.key = key) = [r] → c.findResource? key = some r ∧ c.Moves key r

/-- A resource that has its key to itself, and no variable name, is the first that goes by its name in any case. -/
def NamesLead (c : Character) : Prop :=
  ∀ front r back, c.resources = front ++ r :: back → (∀ other ∈ front ++ back, other.key ≠ r.key) →
    ¬ r.HasVariable → ∀ other ∈ front, lowered other.name ≠ lowered r.name

section Alone

variable {c : Character} {front back : List Resource} {r : Resource}

private theorem changeCounters_eq_outOfBounds {counters : Counters} (counted : c.Counted counters)
    {change : ResourceChange}
    {name : CounterName} {maximum : Int} (named : c.target change = .ok (name, maximum))
    (beyond : ¬ (0 ≤ counters.count name + change.delta ∧ counters.count name + change.delta ≤ maximum)) :
    c.changeCounters counters change =
      .error (.outOfBounds change.key (counters.count name) maximum change.delta) := by
  have refused : changed change (counters.count name) maximum =
      .error (.outOfBounds change.key (counters.count name) maximum change.delta) := by
    refine if_pos ?_
    omega
  rw [changeCounters_eq counted, named, Except.bind]
  dsimp only
  rw [refused]
  rfl

theorem filter_key_eq_singleton_iff {key : String} :
    c.resources.filter (fun own => own.key = key) = [r] ↔
      ∃ front back, c.resources = front ++ r :: back ∧ r.key = key ∧ ∀ other ∈ front ++ back, other.key ≠ key := by
  simp only [List.filter_eq_cons_iff, List.filter_eq_nil_iff, decide_eq_true_eq, List.mem_append]
  constructor
  · rintro ⟨front, back, eq, before, same, behind⟩
    exact ⟨front, back, eq, same, fun other member => member.elim (before other) (behind other)⟩
  · rintro ⟨front, back, eq, same, apart⟩
    exact ⟨front, back, eq, fun other member => apart other (Or.inl member), same,
      fun other member => apart other (Or.inr member)⟩

variable (listed : c.resources = front ++ r :: back) (alone : ∀ other ∈ front ++ back, other.key ≠ r.key)
include listed alone

private theorem findResource?_of_hasVariable (owned : r.HasVariable) : c.findResource? r.key = some r := by
  obtain ⟨name, held, present⟩ := owned
  have key := Resource.key_of_variable held present
  have before : front.find? (fun own => own.variableName == some r.key) = none := by
    rw [List.find?_eq_none]
    intro other member same
    rw [beq_iff_eq, key] at same
    refine alone other (List.mem_append_left back member) ?_
    rw [Resource.key_of_variable same present, key]
  have here : (r.variableName == some r.key) = true := by
    rw [beq_iff_eq, key]
    exact held
  unfold findResource?
  rw [listed, List.find?_append, before, Option.none_or, List.find?_cons, here]
  rfl

private theorem findResource?_of_name (named : r.name ≠ "") (absent : ¬ r.HasVariable) :
    c.findResource? r.key = (front.find? fun own => lowered own.name == lowered r.name).or (some r) := by
  have key := Resource.key_of_not_hasVariable absent
  have unheld : ∀ other ∈ c.resources, ¬ (other.variableName == some r.key) = true := by
    intro other member same
    rw [beq_iff_eq, key] at same
    rw [listed, List.mem_append, List.mem_cons] at member
    rcases member with before | rfl | behind
    · exact alone other (List.mem_append_left back before) (by rw [Resource.key_of_variable same named, key])
    · exact absent ⟨_, same, named⟩
    · exact alone other (List.mem_append_right front behind) (by rw [Resource.key_of_variable same named, key])
  unfold findResource?
  rw [List.find?_eq_none.mpr unheld, Option.none_or, listed, List.find?_append, key, List.find?_cons, beq_self_eq_true]

/-- The resource that has a key to itself is found under it exactly when the key is a variable name, or no resource
before it goes by its name in any case. -/
theorem findResource?_key_iff (named : r.name ≠ "") :
    c.findResource? r.key = some r ↔
      r.HasVariable ∨ ∀ other ∈ front, lowered other.name ≠ lowered r.name := by
  by_cases owned : r.HasVariable
  · exact iff_of_true (findResource?_of_hasVariable listed alone owned) (Or.inl owned)
  · rw [findResource?_of_name listed alone named owned, or_iff_right owned]
    constructor
    · intro found other member same
      cases first : front.find? fun own => lowered own.name == lowered r.name with
      | none => exact List.find?_eq_none.mp first other member (beq_iff_eq.mpr same)
      | some own =>
        rw [first] at found
        obtain rfl : own = r := Option.some.inj found
        exact alone own (List.mem_append_left back (List.mem_of_find?_eq_some first)) rfl
    · intro lead
      have none : front.find? (fun own => lowered own.name == lowered r.name) = Option.none :=
        List.find?_eq_none.mpr fun other member same => lead other member (beq_iff_eq.mp same)
      rw [none, Option.none_or]

private theorem count_of_alone : c.counters.count (.resource r.key) = r.current := by
  have member : r ∈ c.resources := by simp [listed]
  obtain ⟨other, present, same, found⟩ := c.resource?_counters member
  have own : other = r := by
    rw [listed, List.mem_append, List.mem_cons] at present
    rcases present with before | own | behind
    · exact absurd same (alone other (List.mem_append_left back before))
    · exact own
    · exact absurd same (alone other (List.mem_append_right front behind))
  rw [Counters.count, found, Option.getD_some, own]

/-- With another count under the key of the resource, only this resource differs. -/
theorem resources_withCounters_put {counters : Counters} (counted : c.Counted counters) (count : Int) :
    (c.withCounters (counters.put (.resource r.key) count)).resources =
      front.map (fun own => own.recount (counters.count (.resource own.key))) ++
        r.recount count :: back.map fun own => own.recount (counters.count (.resource own.key)) := by
  have member : r ∈ c.resources := by simp [listed]
  have still : c.Counted (counters.put (.resource r.key) count) := by
    intro key
    simp only [Counters.put, Counters.resource?, Entries.get?_put]
    split
    · rename_i same
      exact iff_of_true rfl ⟨r, member, same⟩
    · exact counted key
  have others : ∀ own ∈ front ++ back,
      own.recount ((counters.put (.resource r.key) count).count (.resource own.key)) =
        own.recount (counters.count (.resource own.key)) := by
    intro own present
    have apart : CounterName.resource r.key ≠ .resource own.key :=
      fun same => alone own present (CounterName.resource.inj same).symm
    rw [Counters.count_put, if_neg apart]
  rw [resources_withCounters still, listed, List.map_append, List.map_cons, Counters.count_put, if_pos rfl,
    List.map_congr_left fun own present => others own (List.mem_append_left back present),
    List.map_congr_left fun own present => others own (List.mem_append_right front present)]

/-- A resource that is found under the key that it has to itself is moved by what is changed under it. -/
theorem moves_of_found (found : c.findResource? r.key = some r) : c.Moves r.key r := by
  have counted := c.counted_counters
  have shown := count_of_alone listed alone
  have still : (c.withCounters c.counters).resources = _ := resources_withCounters counted
  rw [listed, List.map_append, List.map_cons, shown, Resource.recount_current] at still
  refine ⟨c.withCounters c.counters, _, _, rfl, still, fun delta => ?_⟩
  have named := target_resource delta found
  split
  · rename_i inside
    have step := changeCounters_eq_ok counted named (by rw [shown]; exact inside.1) (by rw [shown]; exact inside.2)
    rw [shown] at step
    refine withChanges_eq_ok_iff.mpr ⟨_, foldlM_singleton step, ?_⟩
    rw [← resources_withCounters_put listed alone counted]
    rfl
  · rename_i beyond
    have step := changeCounters_eq_outOfBounds counted named (by rw [shown]; exact beyond)
    rw [shown] at step
    unfold withChanges
    rw [List.foldlM_cons, step]
    rfl

end Alone

/-- Keys address the resources that they were taken from exactly when no resource without a variable name stands
behind one of its name in any case. -/
theorem keysAddress_iff {c : Character} (valid : c.Valid) : c.KeysAddress ↔ c.NamesLead := by
  constructor
  · intro address front r back listed alone absent
    have member : r ∈ c.resources := by simp [listed]
    have only := filter_key_eq_singleton_iff.mpr ⟨front, back, listed, rfl, alone⟩
    have found := (address r.key r only).1
    exact ((findResource?_key_iff listed alone (valid.resources r member).named).mp found).resolve_left absent
  · intro lead key r only
    obtain ⟨front, back, listed, rfl, alone⟩ := filter_key_eq_singleton_iff.mp only
    have member : r ∈ c.resources := by simp [listed]
    have found := (findResource?_key_iff listed alone (valid.resources r member).named).mpr
      (or_iff_not_imp_left.mpr (lead front r back listed alone))
    exact ⟨found, moves_of_found listed alone found⟩

/-- Two resources by one name in different cases, of which the second may have a variable name. -/
def namesakes (variableName : Option String) : Character :=
  { plain with resources := [⟨"Luck", 1, 3, none⟩, ⟨"luck", 5, 10, variableName⟩] }

theorem valid_namesakes (variableName : Option String) : (namesakes variableName).Valid := by
  refine valid_plain.withPools (fun r member => ?_) SpellSlots.valid_empty
  rcases List.mem_pair.mp member with rfl | rfl
  · exact ⟨by decide, by decide⟩
  · exact ⟨by simp, by simp [Resource.InBounds]⟩

/-- Without a variable name the second of two namesakes is not found under its key, and what is taken from it is
taken from the first. -/
theorem not_keysAddress_namesakes :
    (namesakes none).Valid ∧
      (namesakes none).resources.filter (fun own => own.key = "luck") = [⟨"luck", 5, 10, none⟩] ∧
      (namesakes none).findResource? "luck" = some ⟨"Luck", 1, 3, none⟩ ∧
      ((namesakes none).withChanges [⟨.resource, "luck", -1⟩]).map (·.resources) =
        .ok [⟨"Luck", 0, 3, none⟩, ⟨"luck", 5, 10, none⟩] ∧
      ¬ (namesakes none).KeysAddress := by
  have only : (namesakes none).resources.filter (fun own => own.key = "luck") = [⟨"luck", 5, 10, none⟩] := by
    decide +kernel
  have found : (namesakes none).findResource? "luck" = some ⟨"Luck", 1, 3, none⟩ := by decide +kernel
  refine ⟨valid_namesakes none, only, found, by decide +kernel, fun address => ?_⟩
  have other := (address "luck" _ only).1
  rw [found] at other
  revert other
  decide

/-- With a variable name it is found and moved. -/
theorem keysAddress_namesakes :
    (namesakes (some "luckPoints")).Valid ∧ (namesakes (some "luckPoints")).KeysAddress ∧
      ((namesakes (some "luckPoints")).withChanges [⟨.resource, "luckPoints", -1⟩]).map (·.resources) =
        .ok [⟨"Luck", 1, 3, none⟩, ⟨"luck", 4, 10, some "luckPoints"⟩] := by
  refine ⟨valid_namesakes _, (keysAddress_iff (valid_namesakes _)).mpr ?_, by decide +kernel⟩
  intro front r back listed alone absent other before
  change [_, _] = front ++ r :: back at listed
  cases front with
  | nil => cases before
  | cons first front =>
    obtain ⟨_, listed⟩ := List.cons.inj listed
    cases front with
    | nil =>
      obtain ⟨rfl, _⟩ := List.cons.inj listed
      exact absurd ⟨_, rfl, by decide⟩ absent
    | cons second front =>
      obtain ⟨_, listed⟩ := List.cons.inj listed
      exact absurd listed.symm (List.append_ne_nil_of_right_ne_nil front (List.cons_ne_nil r back))

end Character

end HeroSheet
