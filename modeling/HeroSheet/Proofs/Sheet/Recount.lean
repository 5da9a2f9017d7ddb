import HeroSheet.Proofs.Sheet.Counters
import Mathlib.Data.List.Nodup

namespace HeroSheet

/-- The resource with another count. -/
def Resource.recount (r : Resource) (count : Int) : Resource := { r with current := count }

@[simp] theorem Resource.key_recount (r : Resource) (count : Int) : (r.recount count).key = r.key := rfl

@[simp] theorem Resource.max_recount (r : Resource) (count : Int) : (r.recount count).max = r.max := rfl

@[simp] theorem Resource.recount_current (r : Resource) : r.recount r.current = r := rfl

namespace Character

private theorem get?_recounted (resources : List Resource) (entries : List (String × Int))
    (key : String) :
    (∃ r ∈ resources, r.key = key ∧
      Entries.get? (resources.foldl (fun entries r => Entries.put entries r.key r.current) entries) key =
        some r.current) ∨
    ((∀ r ∈ resources, r.key ≠ key) ∧
      Entries.get? (resources.foldl (fun entries r => Entries.put entries r.key r.current) entries) key =
        Entries.get? entries key) := by
  induction resources generalizing entries with
  | nil => exact Or.inr ⟨by simp, rfl⟩
  | cons r rest ih =>
    rw [List.foldl_cons]
    rcases ih (Entries.put entries r.key r.current) with ⟨later, member, same, found⟩ | ⟨absent, kept⟩
    · exact Or.inl ⟨later, List.mem_cons_of_mem r member, same, found⟩
    · by_cases here : r.key = key
      · refine Or.inl ⟨r, List.mem_cons_self, here, ?_⟩
        rw [kept, Entries.get?_put, if_pos here]
      · refine Or.inr ⟨?_, ?_⟩
        · intro other member
          rcases List.mem_cons.mp member with rfl | later
          · exact here
          · exact absent other later
        · rw [kept, Entries.get?_put, if_neg here]

/-- The counter under the key of a resource shows what a resource with this key has. -/
theorem resource?_counters (c : Character) {r : Resource} (member : r ∈ c.resources) :
    ∃ other ∈ c.resources, other.key = r.key ∧ c.counters.resource? r.key = some other.current := by
  rcases get?_recounted c.resources [] r.key with found | ⟨absent, _⟩
  · exact found
  · exact absurd rfl (absent r member)

theorem counted_counters (c : Character) : c.Counted c.counters := by
  intro key
  constructor
  · intro present
    rcases get?_recounted c.resources [] key with ⟨r, member, same, _⟩ | ⟨_, kept⟩
    · exact ⟨r, member, same⟩
    · simp only [Counters.resource?, counters, kept, Entries.get?] at present
      cases present
  · rintro ⟨r, member, rfl⟩
    obtain ⟨other, _, _, found⟩ := c.resource?_counters member
    simp [found]

/-- Resources with one key have one count. -/
def CountsAgree (c : Character) : Prop :=
  ∀ r ∈ c.resources, ∀ other ∈ c.resources, r.key = other.key → r.current = other.current

theorem CountsAgree.count {c : Character} (agree : c.CountsAgree) {r : Resource}
    (member : r ∈ c.resources) : c.counters.count (.resource r.key) = r.current := by
  obtain ⟨other, present, same, found⟩ := c.resource?_counters member
  rw [Counters.count, found, Option.getD_some]
  exact agree other present r member same

theorem countsAgree_of_nodup {c : Character} (distinct : (c.resources.map Resource.key).Nodup) :
    c.CountsAgree := by
  intro r member other present same
  rw [List.inj_on_of_nodup_map distinct member present same]

variable {c : Character} {counters : Counters}

theorem resources_withCounters (counted : c.Counted counters) :
    (c.withCounters counters).resources =
      c.resources.map fun r => r.recount (counters.count (.resource r.key)) := by
  refine List.map_congr_left fun r member => ?_
  obtain ⟨count, found⟩ := Option.isSome_iff_exists.mp ((counted r.key).mpr ⟨r, member, rfl⟩)
  simp [Resource.recount, Counters.count, found]

theorem withCounters_counters (agree : c.CountsAgree) : c.withCounters c.counters = c := by
  have same : (c.withCounters c.counters).resources = c.resources := by
    rw [resources_withCounters c.counted_counters]
    refine (List.map_congr_left fun r member => ?_).trans (List.map_id c.resources)
    rw [agree.count member, Resource.recount_current, id]
  calc c.withCounters c.counters
      = { c with resources := (c.withCounters c.counters).resources } := rfl
    _ = c := by rw [same]

theorem countsAgree_withCounters (counted : c.Counted counters) :
    (c.withCounters counters).CountsAgree := by
  intro r member other present same
  rw [resources_withCounters counted] at member present
  obtain ⟨own, _, rfl⟩ := List.mem_map.mp member
  obtain ⟨twin, _, rfl⟩ := List.mem_map.mp present
  simp only [Resource.key_recount] at same
  simp only [Resource.recount, same]

theorem findResource?_withCounters (counted : c.Counted counters) (key : String) :
    (c.withCounters counters).findResource? key =
      (c.findResource? key).map fun r => r.recount (counters.count (.resource r.key)) := by
  unfold findResource?
  rw [resources_withCounters counted, List.find?_map, List.find?_map, Option.map_or]
  rfl

/-- A character's counters are those it was given. -/
theorem count_withCounters (counted : c.Counted counters) (name : CounterName) :
    (c.withCounters counters).counters.count name = counters.count name := by
  cases name with
  | slots level => rfl
  | pact => rfl
  | resource key =>
    have kept := (c.withCounters counters).counted_counters key
    rw [resources_withCounters counted] at kept
    by_cases present : ∃ r ∈ c.resources, r.key = key
    · obtain ⟨r, member, rfl⟩ := present
      have here : r.recount (counters.count (.resource r.key)) ∈ (c.withCounters counters).resources := by
        rw [resources_withCounters counted]
        exact List.mem_map_of_mem member
      exact (countsAgree_withCounters counted).count here
    · have before : counters.resource? key = none := by
        simpa using (not_congr (counted key)).mpr present
      have after : (c.withCounters counters).counters.resource? key = none := by
        refine Option.not_isSome_iff_eq_none.mp ((not_congr kept).mpr ?_)
        rintro ⟨r, member, same⟩
        obtain ⟨own, owned, rfl⟩ := List.mem_map.mp member
        exact present ⟨own, owned, same⟩
      rw [Counters.count, Counters.count, before, after]

end Character

end HeroSheet
