import HeroSheet.Proofs.Sheet.Recount

namespace HeroSheet

namespace Character

/-- The counters stand under the keys of the sheet, in its order. -/
def Keeps (c : Character) (counters : Counters) : Prop :=
  counters.resources.map Prod.fst = c.counters.resources.map Prod.fst

variable {c : Character} {counters after : Counters}

section Keys

theorem keeps_counters (c : Character) : c.Keeps c.counters := rfl

theorem Keeps.counted (kept : c.Keeps counters) : c.Counted counters := by
  intro key
  rw [← c.counted_counters key, Counters.resource?, Counters.resource?, Entries.isSome_get?_iff,
    Entries.isSome_get?_iff, kept]

theorem Keeps.put (kept : c.Keeps counters) {change : ResourceChange} {name : CounterName} {maximum : Int}
    (named : c.target change = .ok (name, maximum)) (value : Int) : c.Keeps (counters.put name value) := by
  rcases target_cases named with ⟨level, _, _, rfl, _⟩ | ⟨_, rfl, _⟩ | ⟨r, _, found, rfl, _⟩
  · exact kept
  · exact kept
  · have present : (counters.resource? r.key).isSome :=
      (kept.counted r.key).mpr ⟨r, mem_of_findResource? found, rfl⟩
    have listed : r.key ∈ counters.resources.map Prod.fst := Entries.isSome_get?_iff.mp present
    calc (counters.put (.resource r.key) value).resources.map Prod.fst
        = (Entries.put counters.resources r.key value).map Prod.fst := rfl
      _ = counters.resources.map Prod.fst := by rw [Entries.keys_put, if_pos listed]
      _ = c.counters.resources.map Prod.fst := kept

theorem Keeps.changeCounters (kept : c.Keeps counters) {change : ResourceChange}
    (accepted : c.changeCounters counters change = .ok after) : c.Keeps after := by
  obtain ⟨name, maximum, named, _, _, rfl⟩ := changeCounters_cases kept.counted accepted
  exact kept.put named _

theorem Keeps.foldlM (kept : c.Keeps counters) {changes : List ResourceChange}
    (accepted : changes.foldlM c.changeCounters counters = .ok after) : c.Keeps after :=
  foldlM_changeCounters_induct c.Keeps (fun _ _ _ _ before step => before.changeCounters step) kept accepted

end Keys

section Rewritten

variable {other : Counters}

end Rewritten

end Character

end HeroSheet
