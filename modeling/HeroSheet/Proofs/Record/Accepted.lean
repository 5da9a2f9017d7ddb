import HeroSheet.Record.Basic

/-!
What is known of a value that was read. A reader ensures a property when every value that it accepts has
it; readers that are built from others ensure what the parts ensure.
-/

namespace HeroSheet.Record

variable {α β : Type}

/-- Every value that the reader accepts has the property. -/
def Ensures (read : Reader α) (holds : α → Prop) : Prop :=
  ∀ ⦃d : Data⦄ ⦃value : α⦄, read d = .valid value → holds value

theorem Checked.map_eq_valid {f : α → β} {x : Checked α} {b : β} :
    x.map f = .valid b ↔ ∃ a, x = .valid a ∧ f a = b := by
  cases x <;> simp [Checked.map]

theorem Checked.both_eq_valid {f : Checked (α → β)} {x : Unit → Checked α} {b : β} :
    f.both x = .valid b ↔ ∃ g a, f = .valid g ∧ x () = .valid a ∧ g a = b := by
  cases f with
  | valid g => simp [Checked.both, Checked.map_eq_valid]
  | refused issues => cases given : x () <;> simp [Checked.both, given]
  | stopped reason => simp [Checked.both]

theorem Checked.andThen_eq_valid {x : Checked α} {f : α → Checked β} {b : β} :
    x.andThen f = .valid b ↔ ∃ a, x = .valid a ∧ f a = .valid b := by
  cases x <;> simp [Checked.andThen]

theorem Checked.under_eq_valid {name : String} {x : Checked α} {a : α} :
    x.under name = .valid a ↔ x = .valid a := by
  cases x <;> simp [Checked.under]

theorem fmap_eq_valid {f : α → β} {x : Checked α} {b : β} :
    f <$> x = .valid b ↔ ∃ a, x = .valid a ∧ f a = b :=
  Checked.map_eq_valid

theorem seq_eq_valid {f : Checked (α → β)} {x : Checked α} {b : β} :
    f <*> x = .valid b ↔ ∃ g a, f = .valid g ∧ x = .valid a ∧ g a = b :=
  Checked.both_eq_valid

theorem record_fields_eq_valid {known : List String} {read : List (String × Data) → Checked α}
    {fields : List (String × Data)} {value : α} (accepted : record known read (.fields fields) = .valid value) :
    read fields = .valid value := by
  obtain ⟨keep, none, first, _, rfl⟩ := Checked.both_eq_valid.mp accepted
  obtain ⟨found, valid, rfl⟩ := Checked.map_eq_valid.mp first
  exact valid

theorem record_eq_valid {known : List String} {read : List (String × Data) → Checked α} {d : Data}
    {value : α} (accepted : record known read d = .valid value) :
    ∃ fields, read fields = .valid value := by
  cases d with
  | fields fields => exact ⟨fields, record_fields_eq_valid accepted⟩
  | _ => simp [record, Checked.refuse] at accepted

theorem keeping_eq_valid {broken? : α → Option String} {x : Checked α} {value : α} :
    keeping broken? x = .valid value ↔ x = .valid value ∧ broken? value = none := by
  unfold keeping
  rw [Checked.andThen_eq_valid]
  constructor
  · rintro ⟨a, read, kept⟩
    cases broken : broken? a with
    | none =>
      simp only [broken, Checked.valid.injEq] at kept
      subst kept
      exact ⟨read, broken⟩
    | some message => simp [broken, Checked.refuse] at kept
  · rintro ⟨read, unbroken⟩
    exact ⟨value, read, by simp [unbroken]⟩

theorem Ensures.required {read : Reader α} {holds : α → Prop} (ensures : Ensures read holds)
    {fields : List (String × Data)} {name : String} {value : α}
    (accepted : required fields name read = .valid value) : holds value := by
  unfold Record.required at accepted
  split at accepted
  · exact ensures (Checked.under_eq_valid.mp accepted)
  · cases accepted

theorem Ensures.withDefault {read : Reader α} {holds : α → Prop} (ensures : Ensures read holds)
    {fields : List (String × Data)} {name : String} {default value : α} (start : holds default)
    (accepted : withDefault fields name default read = .valid value) : holds value := by
  unfold Record.withDefault at accepted
  split at accepted
  · exact ensures (Checked.under_eq_valid.mp accepted)
  · cases accepted
    exact start

theorem Ensures.optional {read : Reader α} {holds : α → Prop} (ensures : Ensures read holds) :
    Ensures (optional read) (fun value => ∀ a ∈ value, holds a) := by
  intro d value accepted a member
  cases d with
  | null =>
    cases accepted
    cases member
  | _ =>
    obtain ⟨b, read, rfl⟩ := Checked.map_eq_valid.mp accepted
    cases Option.mem_some.mp member
    exact ensures read

private theorem mem_of_sequence {checked : List (Checked α)} {values : List α}
    (accepted : Checked.sequence checked = .valid values) :
    ∀ a ∈ values, .valid a ∈ checked := by
  induction checked generalizing values with
  | nil =>
    cases accepted
    intro a member
    cases member
  | cons x xs ih =>
    obtain ⟨cons, rest, first, others, rfl⟩ := Checked.both_eq_valid.mp accepted
    obtain ⟨head, read, rfl⟩ := Checked.map_eq_valid.mp first
    intro a member
    rcases List.mem_cons.mp member with rfl | later
    · exact List.mem_cons.mpr (.inl read.symm)
    · exact List.mem_cons_of_mem _ (ih others a later)

theorem Ensures.list {read : Reader α} {holds : α → Prop} (ensures : Ensures read holds) :
    Ensures (list read) (fun values => ∀ a ∈ values, holds a) := by
  intro d values accepted a member
  cases d with
  | list items =>
    obtain ⟨⟨item, index⟩, _, checked⟩ := List.mem_map.mp (mem_of_sequence accepted a member)
    exact ensures (Checked.under_eq_valid.mp checked)
  | _ => simp [Record.list, Checked.refuse] at accepted

theorem nonemptyText_eq_valid {d : Data} {value : String} :
    nonemptyText d = .valid value ↔ d = .text value ∧ value ≠ "" := by
  cases d with
  | text s =>
    by_cases blank : s = ""
    · simp only [nonemptyText, blank, String.isEmpty_iff, if_true, Checked.refuse]
      constructor
      · intro refused
        cases refused
      · rintro ⟨same, some⟩
        exact absurd (Data.text.inj same).symm some
    · simp only [nonemptyText, String.isEmpty_iff, blank, if_false, Checked.valid.injEq, Data.text.injEq]
      constructor
      · rintro rfl
        exact ⟨rfl, blank⟩
      · exact And.left
  | _ => simp [nonemptyText, Checked.refuse]

theorem ensures_nonemptyText : Ensures nonemptyText (· ≠ "") :=
  fun _ _ accepted => (nonemptyText_eq_valid.mp accepted).2

theorem ensures_integerWithin (least : Int) (greatest : Option Int) :
    Ensures (integerWithin least greatest) (fun n => least ≤ n ∧ ∀ bound ∈ greatest, n ≤ bound) := by
  intro d value accepted
  obtain ⟨n, _, inside⟩ := Checked.andThen_eq_valid.mp accepted
  split at inside
  · cases inside
  · rename_i low
    split at inside
    · cases inside
    · rename_i high
      cases inside
      refine ⟨by omega, ?_⟩
      rintro bound rfl
      simpa using high

theorem ensures_integerFrom (least : Int) : Ensures (integerFrom least) (least ≤ ·) :=
  fun _ _ accepted => (ensures_integerWithin least none accepted).1

end HeroSheet.Record
