namespace HeroSheet.Entries

variable {κ α : Type} [DecidableEq κ]

/-- The value under a key. -/
def get? : List (κ × α) → κ → Option α
  | [], _ => none
  | e :: es, key => if e.1 = key then some e.2 else get? es key

/-- The entries with one value set; a key that is there already keeps its place. -/
def put : List (κ × α) → κ → α → List (κ × α)
  | [], key, value => [(key, value)]
  | e :: es, key, value => if e.1 = key then (key, value) :: es else e :: put es key value

theorem get?_put (entries : List (κ × α)) (key other : κ) (value : α) :
    get? (put entries key value) other = if key = other then some value else get? entries other := by
  induction entries with
  | nil => simp [put, get?]
  | cons e es ih =>
    by_cases found : e.1 = key
    · by_cases same : key = other <;> simp [put, get?, found, same]
    · by_cases here : e.1 = other
      · have apart : ¬ key = other := fun same => found (here.trans same.symm)
        rw [put, if_neg found, if_neg apart, get?, get?, if_pos here, if_pos here]
      · simp [put, get?, found, here, ih]

/-- A key that is there already adds none. -/
theorem keys_put (entries : List (κ × α)) (key : κ) (value : α) :
    (put entries key value).map Prod.fst =
      if key ∈ entries.map Prod.fst then entries.map Prod.fst
      else entries.map Prod.fst ++ [key] := by
  induction entries with
  | nil => simp [put]
  | cons e es ih =>
    by_cases found : e.1 = key
    · simp [put, found]
    · have apart : ¬ key = e.1 := fun same => found same.symm
      simp only [put, if_neg found, List.map_cons, ih, List.mem_cons, apart, false_or]
      split <;> simp

/-- What is there after a value was set was there before, or is that value. -/
theorem mem_put {entries : List (κ × α)} {key : κ} {value : α} {e : κ × α} (member : e ∈ put entries key value) :
    e = (key, value) ∨ e ∈ entries := by
  induction entries with
  | nil => exact Or.inl (List.mem_singleton.mp member)
  | cons own es ih =>
    unfold put at member
    split at member
    · exact (List.mem_cons.mp member).imp id (List.mem_cons_of_mem own)
    · rcases List.mem_cons.mp member with rfl | later
      · exact Or.inr List.mem_cons_self
      · exact (ih later).imp id (List.mem_cons_of_mem own)

theorem isSome_get?_iff {entries : List (κ × α)} {key : κ} :
    (get? entries key).isSome ↔ key ∈ entries.map Prod.fst := by
  induction entries with
  | nil => simp [get?]
  | cons e es ih =>
    by_cases here : e.1 = key
    · simp [get?, here]
    · rw [get?, if_neg here, ih, List.map_cons, List.mem_cons, or_iff_right (Ne.symm here)]

theorem mem_of_get? {entries : List (κ × α)} {key : κ} {value : α} (found : get? entries key = some value) :
    (key, value) ∈ entries := by
  induction entries with
  | nil => cases found
  | cons e es ih =>
    rw [get?] at found
    split at found
    · rename_i own
      obtain rfl := Option.some.inj found
      exact own ▸ List.mem_cons_self
    · exact List.mem_cons_of_mem e (ih found)

/-- Where each key stands once, every entry is the one that its key finds. -/
theorem get?_of_mem {entries : List (κ × α)} (distinct : (entries.map Prod.fst).Nodup) {e : κ × α}
    (member : e ∈ entries) : get? entries e.1 = some e.2 := by
  induction entries with
  | nil => cases member
  | cons own es ih =>
    obtain ⟨absent, distinct⟩ := List.nodup_cons.mp distinct
    rcases List.mem_cons.mp member with rfl | later
    · rw [get?, if_pos rfl]
    · have apart : own.1 ≠ e.1 := fun same => absent (same ▸ List.mem_map_of_mem later)
      rw [get?, if_neg apart, ih distinct later]

theorem nodup_keys_put {entries : List (κ × α)} (distinct : (entries.map Prod.fst).Nodup) (key : κ)
    (value : α) : ((put entries key value).map Prod.fst).Nodup := by
  rw [keys_put]
  split
  · exact distinct
  · rename_i absent
    refine List.nodup_append.mpr ⟨distinct, by simp, ?_⟩
    rintro own member other new rfl
    exact absent (List.mem_singleton.mp new ▸ member)

theorem get?_eq_none {entries : List (κ × α)} {key : κ} (absent : key ∉ entries.map Prod.fst) :
    get? entries key = none := by
  rw [← Option.not_isSome_iff_eq_none, isSome_get?_iff]
  exact absent

end HeroSheet.Entries
