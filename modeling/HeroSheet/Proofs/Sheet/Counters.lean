import HeroSheet.Proofs.Outcome
import HeroSheet.Sheet.Change

namespace HeroSheet

/-- The slots of a level, the pact slots, or the resources under a key. -/
inductive CounterName where
  | slots (level : Int)
  | pact
  | resource (key : String)
  deriving DecidableEq, Repr

namespace Counters

/-- What a counter shows; a key without a counter shows nothing. -/
def count (counters : Counters) : CounterName → Int
  | .slots level => counters.slots.get level
  | .pact => counters.pact
  | .resource key => (counters.resource? key).getD 0

def put (counters : Counters) : CounterName → Int → Counters
  | .slots level, value => { counters with slots := counters.slots.set level value }
  | .pact, value => { counters with pact := value }
  | .resource key, value =>
    { counters with resources := Entries.put counters.resources key value }

theorem count_put (counters : Counters) (name other : CounterName) (value : Int) :
    (counters.put name value).count other = if name = other then value else counters.count other := by
  cases name <;> cases other <;>
    simp [count, put, resource?, LevelCounts.get, LevelCounts.set, Entries.get?_put]
  all_goals split <;> rfl

end Counters

namespace Character

/-- The counter that a change names, and its maximum. -/
def target (c : Character) (change : ResourceChange) : Except ChangeFault (CounterName × Int) :=
  match change.kind with
  | .spellSlot =>
    match slotLevelOf? change.key with
    | some level => .ok (.slots level, c.spellSlots.maxFor level)
    | none => .error (.unknownSlot change.key)
  | .pactSlot => .ok (.pact, c.spellSlots.pactMax)
  | .resource =>
    match c.findResource? change.key with
    | some r => .ok (.resource r.key, r.max)
    | none => .error (.unknownResource change.key change.delta)

def Names (c : Character) (change : ResourceChange) (name : CounterName) : Prop :=
  (c.target change).toOption.map Prod.fst = some name

instance (c : Character) (change : ResourceChange) (name : CounterName) :
    Decidable (c.Names change name) :=
  inferInstanceAs (Decidable (_ = _))

/-- What the changes that name a counter come to. -/
def moved (c : Character) (changes : List ResourceChange) (name : CounterName) : Int :=
  (changes.map fun change => if c.Names change name then change.delta else 0).foldr (· + ·) 0

theorem moved_cons (c : Character) (change : ResourceChange) (changes : List ResourceChange)
    (name : CounterName) :
    c.moved (change :: changes) name =
      (if c.Names change name then change.delta else 0) + c.moved changes name :=
  rfl

theorem target_resource {c : Character} {key : String} {r : Resource} (delta : Int)
    (found : c.findResource? key = some r) :
    c.target ⟨.resource, key, delta⟩ = .ok (.resource r.key, r.max) := by
  simp [target, found]

/-- The resources' keys, and no others, have counters. -/
def Counted (c : Character) (counters : Counters) : Prop :=
  ∀ key, (counters.resource? key).isSome ↔ ∃ r ∈ c.resources, r.key = key

theorem mem_of_findResource? {c : Character} {key : String} {r : Resource}
    (found : c.findResource? key = some r) : r ∈ c.resources := by
  rcases Option.or_eq_some_iff.mp found with byVariable | ⟨_, byName⟩
  · exact List.mem_of_find?_eq_some byVariable
  · exact List.mem_of_find?_eq_some byName

/-- One change is one move of the counter that it names. -/
theorem changeCounters_eq {c : Character} {counters : Counters} (counted : c.Counted counters)
    (change : ResourceChange) :
    c.changeCounters counters change =
      (c.target change).bind fun (name, maximum) =>
        (changed change (counters.count name) maximum).map (counters.put name) := by
  unfold changeCounters target
  cases change.kind with
  | spellSlot =>
    cases slotLevelOf? change.key with
    | none => rfl
    | some level =>
      simp only [Except.bind, Counters.count]
      cases changed change (counters.slots.get level) (c.spellSlots.maxFor level) <;> rfl
  | pactSlot =>
    simp only [Except.bind, Counters.count]
    cases changed change counters.pact c.spellSlots.pactMax <;> rfl
  | resource =>
    cases found : c.findResource? change.key with
    | none => rfl
    | some r =>
      obtain ⟨current, present⟩ :=
        Option.isSome_iff_exists.mp ((counted r.key).mpr ⟨r, mem_of_findResource? found, rfl⟩)
      simp only [Except.bind, Counters.count, present, Option.getD_some]
      cases changed change current r.max <;> rfl

/-- A change names the slots of a level, the pact slots, or a resource that its key finds. -/
theorem target_cases {c : Character} {change : ResourceChange} {name : CounterName} {maximum : Int}
    (named : c.target change = .ok (name, maximum)) :
    (∃ level, change.kind = .spellSlot ∧ slotLevelOf? change.key = some level ∧
      name = .slots level ∧ maximum = c.spellSlots.maxFor level) ∨
    (change.kind = .pactSlot ∧ name = .pact ∧ maximum = c.spellSlots.pactMax) ∨
    (∃ r, change.kind = .resource ∧ c.findResource? change.key = some r ∧
      name = .resource r.key ∧ maximum = r.max) := by
  unfold target at named
  cases kind : change.kind with
  | spellSlot =>
    cases found : slotLevelOf? change.key with
    | none => simp [kind, found] at named
    | some level =>
      simp only [kind, found, Except.ok.injEq, Prod.mk.injEq] at named
      exact Or.inl ⟨level, rfl, rfl, named.1.symm, named.2.symm⟩
  | pactSlot =>
    simp only [kind, Except.ok.injEq, Prod.mk.injEq] at named
    exact Or.inr (Or.inl ⟨rfl, named.1.symm, named.2.symm⟩)
  | resource =>
    cases found : c.findResource? change.key with
    | none => simp [kind, found] at named
    | some r =>
      simp only [kind, found, Except.ok.injEq, Prod.mk.injEq] at named
      exact Or.inr (Or.inr ⟨r, rfl, rfl, named.1.symm, named.2.symm⟩)

theorem counted_put {c : Character} {counters : Counters} {change : ResourceChange}
    {name : CounterName} {maximum : Int} (counted : c.Counted counters)
    (named : c.target change = .ok (name, maximum)) (value : Int) :
    c.Counted (counters.put name value) := by
  intro key
  cases name with
  | slots level => exact counted key
  | pact => exact counted key
  | resource own =>
    rcases target_cases named with ⟨_, _, _, impossible, _⟩ | ⟨_, impossible, _⟩ | ⟨r, _, found, same, _⟩
    · cases impossible
    · cases impossible
    · simp only [Counters.put, Counters.resource?, Entries.get?_put]
      split
      · rename_i here
        exact iff_of_true rfl ⟨r, mem_of_findResource? found, (CounterName.resource.inj same).symm.trans here⟩
      · exact counted key

theorem changed_eq_ok_iff {change : ResourceChange} {current maximum value : Int} :
    changed change current maximum = .ok value ↔
      value = current + change.delta ∧ 0 ≤ value ∧ value ≤ maximum := by
  unfold changed
  simp only
  split
  · rename_i outside
    constructor
    · intro impossible
      cases impossible
    · intro ⟨same, low, high⟩
      omega
  · rename_i inside
    simp only [Except.ok.injEq]
    omega

/-- Everything that an accepted change does, and what it was accepted for. -/
theorem changeCounters_cases {c : Character} {counters after : Counters}
    (counted : c.Counted counters) {change : ResourceChange}
    (accepted : c.changeCounters counters change = .ok after) :
    ∃ name maximum, c.target change = .ok (name, maximum) ∧
      0 ≤ counters.count name + change.delta ∧ counters.count name + change.delta ≤ maximum ∧
      after = counters.put name (counters.count name + change.delta) := by
  rw [changeCounters_eq counted] at accepted
  obtain ⟨⟨name, maximum⟩, named, accepted⟩ := bind_eq_ok_iff.mp accepted
  obtain ⟨value, outcome, moves⟩ := map_eq_ok_iff.mp accepted
  obtain ⟨rfl, low, high⟩ := changed_eq_ok_iff.mp outcome
  exact ⟨name, maximum, named, low, high, moves.symm⟩

theorem changeCounters_eq_ok {c : Character} {counters : Counters} (counted : c.Counted counters)
    {change : ResourceChange} {name : CounterName} {maximum : Int}
    (named : c.target change = .ok (name, maximum)) (low : 0 ≤ counters.count name + change.delta)
    (high : counters.count name + change.delta ≤ maximum) :
    c.changeCounters counters change = .ok (counters.put name (counters.count name + change.delta)) := by
  have inside : changed change (counters.count name) maximum = .ok (counters.count name + change.delta) :=
    changed_eq_ok_iff.mpr ⟨rfl, low, high⟩
  rw [changeCounters_eq counted, named]
  simp only [Except.bind, inside, Except.map]

theorem foldlM_singleton {c : Character} {counters after : Counters} {change : ResourceChange}
    (accepted : c.changeCounters counters change = .ok after) :
    [change].foldlM c.changeCounters counters = .ok after := by
  rw [List.foldlM_cons, accepted]
  rfl

/-- What one change keeps, a batch keeps. -/
theorem foldlM_changeCounters_induct {c : Character} (holds : Counters → Prop)
    {changes : List ResourceChange}
    (step : ∀ change ∈ changes, ∀ {counters after}, holds counters →
      c.changeCounters counters change = .ok after → holds after)
    {counters after : Counters} (start : holds counters)
    (accepted : changes.foldlM c.changeCounters counters = .ok after) : holds after := by
  induction changes generalizing counters with
  | nil =>
    obtain rfl : counters = after := Except.ok.inj accepted
    exact start
  | cons change rest ih =>
    rw [List.foldlM_cons] at accepted
    obtain ⟨between, first, accepted⟩ := bind_eq_ok_iff.mp accepted
    exact ih (fun later member => step later (List.mem_cons_of_mem _ member))
      (step change List.mem_cons_self start first) accepted

/-- An accepted batch moves every counter by what the changes that name it come to. -/
theorem count_of_foldlM {c : Character} {changes : List ResourceChange} {counters after : Counters}
    (counted : c.Counted counters)
    (accepted : changes.foldlM c.changeCounters counters = .ok after) (name : CounterName) :
    after.count name = counters.count name + c.moved changes name := by
  induction changes generalizing counters with
  | nil =>
    obtain rfl : counters = after := Except.ok.inj accepted
    exact (Int.add_zero _).symm
  | cons change rest ih =>
    rw [List.foldlM_cons] at accepted
    obtain ⟨between, first, accepted⟩ := bind_eq_ok_iff.mp accepted
    obtain ⟨other, maximum, named, _, _, rfl⟩ := changeCounters_cases counted first
    have names : c.Names change name ↔ other = name := by
      simp [Names, named, Except.toOption]
    rw [ih (counted_put counted named _) accepted, Counters.count_put]
    simp only [moved_cons, names]
    split
    · rename_i same
      subst same
      omega
    · omega

theorem moved_append (c : Character) (changes later : List ResourceChange) (name : CounterName) :
    c.moved (changes ++ later) name = c.moved changes name + c.moved later name := by
  induction changes with
  | nil => exact (Int.zero_add _).symm
  | cons change changes ih => rw [List.cons_append, moved_cons, moved_cons, ih, Int.add_assoc]

theorem moved_singleton {c : Character} {change : ResourceChange} {name : CounterName} {maximum : Int}
    (named : c.target change = .ok (name, maximum)) (other : CounterName) :
    c.moved [change] other = if name = other then change.delta else 0 := by
  simp [moved, Names, named, Except.toOption]

theorem moved_eq_zero {c : Character} {changes : List ResourceChange} {name : CounterName}
    (apart : ∀ change ∈ changes, ¬ c.Names change name) : c.moved changes name = 0 := by
  induction changes with
  | nil => rfl
  | cons change rest ih =>
    rw [moved_cons, if_neg (apart change List.mem_cons_self), Int.zero_add]
    exact ih fun later member => apart later (List.mem_cons_of_mem _ member)

/-- Changes to counters of their own are accepted together when each is accepted alone. -/
theorem exists_foldlM_of_apart {c : Character} {changes : List ResourceChange} {counters : Counters}
    (counted : c.Counted counters)
    (apart : changes.Pairwise fun change later => ∀ name, c.Names change name → ¬ c.Names later name)
    (within : ∀ change ∈ changes, ∃ name maximum, c.target change = .ok (name, maximum) ∧
      0 ≤ counters.count name + change.delta ∧ counters.count name + change.delta ≤ maximum) :
    ∃ after, changes.foldlM c.changeCounters counters = .ok after := by
  induction changes generalizing counters with
  | nil => exact ⟨counters, rfl⟩
  | cons change rest ih =>
    obtain ⟨others, apart⟩ := List.pairwise_cons.mp apart
    obtain ⟨name, maximum, named, low, high⟩ := within change List.mem_cons_self
    have names : c.Names change name := by simp [Names, named, Except.toOption]
    have step := changeCounters_eq_ok counted named low high
    rw [List.foldlM_cons, step]
    refine ih (counted_put counted named _) apart fun later member => ?_
    obtain ⟨own, bound, target, inside⟩ := within later (List.mem_cons_of_mem _ member)
    have different : name ≠ own := by
      rintro rfl
      exact others later member name names (by simp [Names, target, Except.toOption])
    refine ⟨own, bound, target, ?_⟩
    rwa [Counters.count_put, if_neg different]

theorem names_slots_iff {c : Character} {change : ResourceChange} {level : Int} :
    c.Names change (.slots level) ↔
      change.kind = .spellSlot ∧ slotLevelOf? change.key = some level := by
  unfold Names target
  cases change.kind with
  | spellSlot => cases slotLevelOf? change.key <;> simp [Except.toOption]
  | pactSlot => simp [Except.toOption]
  | resource => cases c.findResource? change.key <;> simp [Except.toOption]

theorem names_pact_iff {c : Character} {change : ResourceChange} :
    c.Names change .pact ↔ change.kind = .pactSlot := by
  unfold Names target
  cases change.kind with
  | spellSlot => cases slotLevelOf? change.key <;> simp [Except.toOption]
  | pactSlot => simp [Except.toOption]
  | resource => cases c.findResource? change.key <;> simp [Except.toOption]

theorem names_resource_iff {c : Character} {change : ResourceChange} {key : String} :
    c.Names change (.resource key) ↔
      change.kind = .resource ∧ ∃ r, c.findResource? change.key = some r ∧ r.key = key := by
  unfold Names target
  cases change.kind with
  | spellSlot => cases slotLevelOf? change.key <;> simp [Except.toOption]
  | pactSlot => simp [Except.toOption]
  | resource => cases c.findResource? change.key <;> simp [Except.toOption]

/-- A batch is accepted with the counters that its changes lead to. -/
theorem withChanges_eq_ok_iff {c after : Character} {changes : List ResourceChange} :
    c.withChanges changes = .ok after ↔
      ∃ counters, changes.foldlM c.changeCounters c.counters = .ok counters ∧
        after = c.withCounters counters := by
  unfold withChanges
  rw [bind_eq_ok_iff]
  refine exists_congr fun counters => and_congr_right fun _ => ?_
  rw [Except.ok.injEq, eq_comm]

end Character

end HeroSheet
