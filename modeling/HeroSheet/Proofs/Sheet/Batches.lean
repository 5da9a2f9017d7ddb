import HeroSheet.Proofs.Sheet.Bounds

namespace HeroSheet

namespace Character

/-- The character after a batch; a batch that is refused changes nothing. -/
def afterBatch (c : Character) (changes : List ResourceChange) : Character :=
  match c.withChanges changes with
  | .ok after => after
  | .error _ => c

def afterBatches (c : Character) (batches : List (List ResourceChange)) : Character :=
  batches.foldl afterBatch c

/-- The change is to this very resource. -/
def Addresses (c : Character) (change : ResourceChange) (r : Resource) : Prop :=
  change.kind = .resource ∧ c.findResource? change.key = some r

/-- The sheet without what its counters show. -/
def uncounted (c : Character) : Character :=
  { c with
    spellSlots := { c.spellSlots with current := [], pactCurrent := 0 }
    resources := c.resources.map fun r => r.recount 0 }

/-- Between two states only counters that the changes name have moved. -/
structure MovesOnlyNamed (c after : Character) (changes : List ResourceChange) : Prop where
  slots : ∀ level,
    (∀ change ∈ changes, change.kind = .spellSlot → slotLevelOf? change.key ≠ some level) →
      after.spellSlots.available level = c.spellSlots.available level
  pact : (∀ change ∈ changes, change.kind ≠ .pactSlot) →
    after.spellSlots.pactCurrent = c.spellSlots.pactCurrent
  resources : ∀ (place : Nat) (r : Resource), c.resources[place]? = some r →
    (∀ change ∈ changes, ¬ c.Addresses change r) → after.resources[place]? = some r
  others : after.uncounted = c.uncounted

/-- Whatever batches have been tried, the state is valid, and a batch that is accepted moves only what it
names; one without changes does nothing. -/
def BatchesAreSafe (c : Character) : Prop :=
  ∀ batches : List (List ResourceChange),
    (∀ changes ∈ batches, ∀ change ∈ changes, change.Valid) →
      (c.afterBatches batches).Valid ∧
        ∀ changes after, (∀ change ∈ changes, change.Valid) →
          (c.afterBatches batches).withChanges changes = .ok after →
            MovesOnlyNamed (c.afterBatches batches) after changes ∧
              (changes = [] → after = c.afterBatches batches)

variable {c : Character} {counters : Counters}

theorem uncounted_withCounters (counted : c.Counted counters) :
    (c.withCounters counters).uncounted = c.uncounted := by
  have same : ((c.withCounters counters).resources.map fun r => r.recount 0) =
      c.resources.map fun r => r.recount 0 := by
    rw [resources_withCounters counted, List.map_map]
    rfl
  unfold uncounted
  rw [same]
  rfl

private theorem movable_of_withCounters (counted : c.Counted counters) {r : Resource} {count : Int}
    (movable : (c.withCounters counters).Movable (r.recount count)) :
    ∃ own ∈ c.resources, c.Movable own ∧ own.key = r.key ∧
      own.recount (counters.count (.resource own.key)) = r.recount count := by
  obtain ⟨room, key, named, found⟩ := movable
  rw [findResource?_withCounters counted] at found
  obtain ⟨own, before, same⟩ := Option.map_eq_some_iff.mp found
  have max : own.max = r.max := by simpa using congrArg Resource.max same
  have keys : own.key = r.key := by simpa using congrArg Resource.key same
  exact ⟨own, mem_of_findResource? before, ⟨by rw [max]; exact room, key, named, before⟩, keys, same⟩

private theorem keysAgree_withCounters (counted : c.Counted counters) (agree : c.KeysAgree) :
    (c.withCounters counters).KeysAgree := by
  refine ⟨countsAgree_withCounters counted, ?_⟩
  intro r member other present same movable
  rw [resources_withCounters counted] at member present
  obtain ⟨left, leftMember, rfl⟩ := List.mem_map.mp member
  obtain ⟨right, rightMember, rfl⟩ := List.mem_map.mp present
  simp only [Resource.key_recount] at same
  obtain ⟨own, owned, ownMovable, keys, recounted⟩ := movable_of_withCounters counted movable
  have rightOwn := agree.movable own owned right rightMember (keys.trans same) ownMovable
  rw [← recounted, rightOwn]

/-- An accepted batch keeps a character valid, and resources with one key in agreement. -/
theorem withChanges_keeps {changes : List ResourceChange} {after : Character} (valid : c.Valid)
    (agree : c.KeysAgree) (sound : ∀ change ∈ changes, change.Valid)
    (accepted : c.withChanges changes = .ok after) : after.Valid ∧ after.KeysAgree := by
  obtain ⟨counters, batch, rfl⟩ := withChanges_eq_ok_iff.mp accepted
  have fits := fits_foldlM agree sound (fits_counters valid agree.counts) batch
  exact ⟨valid_withCounters valid fits, keysAgree_withCounters fits.counted agree⟩

private theorem afterBatches_keeps (valid : c.Valid) (agree : c.KeysAgree)
    (batches : List (List ResourceChange))
    (sound : ∀ changes ∈ batches, ∀ change ∈ changes, change.Valid) :
    (c.afterBatches batches).Valid ∧ (c.afterBatches batches).KeysAgree := by
  induction batches generalizing c with
  | nil => exact ⟨valid, agree⟩
  | cons changes rest ih =>
    have next : (c.afterBatch changes).Valid ∧ (c.afterBatch changes).KeysAgree := by
      unfold afterBatch
      split
      · rename_i after accepted
        exact withChanges_keeps valid agree (sound changes List.mem_cons_self) accepted
      · exact ⟨valid, agree⟩
    exact ih next.1 next.2 fun later member => sound later (List.mem_cons_of_mem _ member)

/-- A resource that a batch does not address keeps its count, although it may share its counter. -/
theorem count_of_unaddressed {changes : List ResourceChange} {after : Counters} {r : Resource}
    (valid : c.Valid) (agree : c.KeysAgree) (sound : ∀ change ∈ changes, change.Valid)
    (accepted : changes.foldlM c.changeCounters c.counters = .ok after) (member : r ∈ c.resources)
    (apart : ∀ change ∈ changes, ¬ c.Addresses change r) :
    after.count (.resource r.key) = r.current := by
  have start := fits_counters valid agree.counts
  have last := fits_foldlM agree sound start accepted
  by_cases named : ∃ change ∈ changes, c.Names change (.resource r.key)
  · obtain ⟨change, present, names⟩ := named
    obtain ⟨kind, own, found, shared⟩ := names_resource_iff.mp names
    have owned := mem_of_findResource? found
    have unmovable : ¬ 0 < own.max := by
      intro room
      have one := agree.movable own owned r member shared ⟨room, change.key, sound change present, found⟩
      exact apart change present ⟨kind, one ▸ found⟩
    have before := start.resources own owned
    have later := last.resources own owned
    have now := agree.counts.count member
    rw [shared] at before later
    omega
  · have still : c.moved changes (.resource r.key) = 0 :=
      moved_eq_zero fun change present names => named ⟨change, present, names⟩
    rw [count_of_foldlM c.counted_counters accepted, still, agree.counts.count member, Int.add_zero]

private theorem movesOnlyNamed_of_withChanges {changes : List ResourceChange} {after : Character}
    (valid : c.Valid) (agree : c.KeysAgree) (sound : ∀ change ∈ changes, change.Valid)
    (accepted : c.withChanges changes = .ok after) : MovesOnlyNamed c after changes := by
  obtain ⟨counters, batch, rfl⟩ := withChanges_eq_ok_iff.mp accepted
  have counted := (fits_foldlM agree sound (fits_counters valid agree.counts) batch).counted
  have unmoved : ∀ name, (∀ change ∈ changes, ¬ c.Names change name) →
      counters.count name = c.counters.count name := by
    intro name apart
    rw [count_of_foldlM c.counted_counters batch, moved_eq_zero apart, Int.add_zero]
  refine ⟨fun level apart => ?_, fun apart => ?_, fun place r here apart => ?_,
    uncounted_withCounters counted⟩
  · refine unmoved (.slots level) fun change present names => ?_
    obtain ⟨kind, found⟩ := names_slots_iff.mp names
    exact apart change present kind found
  · exact unmoved .pact fun change present names => apart change present (names_pact_iff.mp names)
  · have member := List.mem_of_getElem? here
    rw [resources_withCounters counted, List.getElem?_map, here, Option.map_some,
      count_of_unaddressed valid agree sound batch member apart, Resource.recount_current]

private theorem batchesAreSafe_of_keysAgree (valid : c.Valid) (agree : c.KeysAgree) : c.BatchesAreSafe := by
  intro batches sound
  obtain ⟨stillValid, stillAgree⟩ := afterBatches_keeps valid agree batches sound
  refine ⟨stillValid, fun changes after clean accepted => ?_⟩
  refine ⟨movesOnlyNamed_of_withChanges stillValid stillAgree clean accepted, ?_⟩
  rintro rfl
  obtain ⟨counters, batch, rfl⟩ := withChanges_eq_ok_iff.mp accepted
  cases batch
  exact withCounters_counters stillAgree.counts

private theorem withChanges_resource (agree : c.CountsAgree) {key : String} {r : Resource} {delta : Int}
    (found : c.findResource? key = some r) (low : 0 ≤ r.current + delta)
    (high : r.current + delta ≤ r.max) :
    c.withChanges [⟨.resource, key, delta⟩] =
      .ok (c.withCounters (c.counters.put (.resource r.key) (r.current + delta))) := by
  have shown := agree.count (mem_of_findResource? found)
  have step := changeCounters_eq_ok c.counted_counters (target_resource delta found)
    (by rw [shown]; exact low) (by rw [shown]; exact high)
  rw [shown] at step
  exact withChanges_eq_ok_iff.mpr ⟨_, foldlM_singleton step, rfl⟩

private theorem countsAgree_of_batchesAreSafe (safe : c.BatchesAreSafe) : c.CountsAgree := by
  have same : c.withCounters c.counters = c :=
    ((safe [] (by simp)).2 [] _ (by simp) (withChanges_eq_ok_iff.mpr ⟨_, rfl, rfl⟩)).2 rfl
  have shown : ∀ r ∈ c.resources, r.current = c.counters.count (.resource r.key) := by
    intro r member
    rw [← same, resources_withCounters c.counted_counters] at member
    obtain ⟨own, _, rfl⟩ := List.mem_map.mp member
    rfl
  intro r member other present keys
  rw [shown r member, shown other present, keys]

private theorem keysAgree_of_batchesAreSafe (valid : c.Valid) (safe : c.BatchesAreSafe) : c.KeysAgree := by
  have agree := countsAgree_of_batchesAreSafe safe
  refine ⟨agree, fun r member other present same movable => ?_⟩
  obtain ⟨room, key, named, found⟩ := movable
  by_contra apart
  have bounds := (valid.resources r member).bounds
  -- one step down, or up from zero, is a change that the counter allows
  obtain ⟨delta, moves, low, high⟩ :
      ∃ delta : Int, delta ≠ 0 ∧ 0 ≤ r.current + delta ∧ r.current + delta ≤ r.max := by
    by_cases spent : r.current = 0
    · exact ⟨1, by omega, by omega, by omega⟩
    · exact ⟨-1, by omega, by have := bounds.1; omega, by have := bounds.2; omega⟩
  have accepted := withChanges_resource agree found low high
  have moved := ((safe [] (by simp)).2 _ _ (by simpa [ResourceChange.Valid] using named) accepted).1
  obtain ⟨place, here⟩ := List.mem_iff_getElem?.mp present
  have kept := moved.resources place other here (by simp [Addresses, afterBatches, found, apart])
  have counted := counted_put c.counted_counters (target_resource delta found)
    (r.current + delta)
  rw [resources_withCounters counted, List.getElem?_map, here, Option.map_some, Option.some.injEq,
    Counters.count_put, if_pos (by rw [same])] at kept
  have still : r.current + delta = other.current := congrArg Resource.current kept
  have before := agree r member other present same
  omega

/-- Batches are safe exactly for characters whose resources agree where they share a key. -/
theorem batchesAreSafe_iff (valid : c.Valid) : c.BatchesAreSafe ↔ c.KeysAgree :=
  ⟨keysAgree_of_batchesAreSafe valid, batchesAreSafe_of_keysAgree valid⟩

/-- Two resources of different sizes, of which one is kept under the given variable name. -/
def twins (variableName : Option String) : Character :=
  { plain with resources := [⟨"Luck", 1, 3, some "k"⟩, ⟨"Grit", 5, 10, variableName⟩] }

theorem valid_twins (variableName : Option String) : (twins variableName).Valid := by
  refine valid_plain.withPools (fun r member => ?_) SpellSlots.valid_empty
  rcases List.mem_pair.mp member with rfl | rfl
  · exact ⟨by decide, by decide⟩
  · exact ⟨by simp, by simp [Resource.InBounds]⟩

/-- Under one key, the batch without changes gives the first the count of the second. -/
theorem not_batchesAreSafe_twins :
    (twins (some "k")).Valid ∧
      (twins (some "k")).withChanges [] = .ok ((twins (some "k")).afterBatches [[]]) ∧
      ((twins (some "k")).afterBatches [[]]).resources =
        [⟨"Luck", 5, 3, some "k"⟩, ⟨"Grit", 5, 10, some "k"⟩] ∧
      ¬ (twins (some "k")).BatchesAreSafe := by
  have overflown : ((twins (some "k")).afterBatches [[]]).resources =
      [⟨"Luck", 5, 3, some "k"⟩, ⟨"Grit", 5, 10, some "k"⟩] := by decide
  refine ⟨valid_twins (some "k"), rfl, overflown, fun safe => ?_⟩
  have valid := (safe [[]] (by simp)).1
  have bounds := (valid.resources ⟨"Luck", 5, 3, some "k"⟩ (by simp [overflown])).bounds
  exact absurd bounds (by decide)

theorem batchesAreSafe_twins_none : (twins none).BatchesAreSafe :=
  (batchesAreSafe_iff (valid_twins none)).mpr (keysAgree_of_nodup (by decide))

end Character

end HeroSheet
