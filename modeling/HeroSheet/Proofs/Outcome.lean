import Mathlib.Data.List.Forall2

namespace HeroSheet

variable {ε ε' α β : Type}

theorem bind_eq_ok_iff {outcome : Except ε α} {f : α → Except ε β} {b : β} :
    (outcome >>= f) = .ok b ↔ ∃ a, outcome = .ok a ∧ f a = .ok b := by
  cases outcome <;> simp [bind, Except.bind]

theorem map_eq_ok_iff {f : α → β} {outcome : Except ε α} {b : β} :
    outcome.map f = .ok b ↔ ∃ a, outcome = .ok a ∧ f a = b := by
  cases outcome <;> simp [Except.map]

theorem mapError_eq_ok_iff {f : ε → ε'} {outcome : Except ε α} {a : α} :
    outcome.mapError f = .ok a ↔ outcome = .ok a := by
  cases outcome with
  | error fault => exact ⟨(nomatch ·), (nomatch ·)⟩
  | ok value =>
    constructor
    · intro same
      exact congrArg Except.ok (Except.ok.inj same)
    · intro same
      exact congrArg Except.ok (Except.ok.inj same)

theorem bind_eq_error_iff {outcome : Except ε α} {f : α → Except ε β} {fault : ε} :
    (outcome >>= f) = .error fault ↔ outcome = .error fault ∨ ∃ a, outcome = .ok a ∧ f a = .error fault := by
  cases outcome <;> simp [bind, Except.bind]

theorem map_eq_error_iff {f : α → β} {outcome : Except ε α} {fault : ε} :
    outcome.map f = .error fault ↔ outcome = .error fault := by
  cases outcome <;> simp [Except.map]

theorem mapError_eq_error_iff {f : ε → ε'} {outcome : Except ε α} {fault : ε'} :
    outcome.mapError f = .error fault ↔ ∃ own, outcome = .error own ∧ f own = fault := by
  cases outcome <;> simp [Except.mapError]

theorem eq_ok_of_toOption {outcome : Except ε α} {a : α} (found : outcome.toOption = some a) : outcome = .ok a := by
  cases outcome with
  | error fault => cases found
  | ok own => exact congrArg Except.ok (Option.some.inj found)

/-- The outcomes of a list are those of its members, one by one. -/
theorem forall₂_of_mapM {f : α → Except ε β} {inputs : List α} {outputs : List β}
    (done : inputs.mapM f = .ok outputs) : List.Forall₂ (fun a b => f a = .ok b) inputs outputs := by
  induction inputs generalizing outputs with
  | nil =>
    obtain rfl := Except.ok.inj done
    exact .nil
  | cons a inputs ih =>
    rw [List.mapM_cons] at done
    obtain ⟨b, first, done⟩ := bind_eq_ok_iff.mp done
    obtain ⟨others, rest, done⟩ := bind_eq_ok_iff.mp done
    obtain rfl := Except.ok.inj done
    exact .cons first (ih rest)

theorem exists_of_mapM {f : α → Except ε β} {inputs : List α} {outputs : List β} (done : inputs.mapM f = .ok outputs) :
    ∀ a ∈ inputs, ∃ b, f a = .ok b := by
  have each := forall₂_of_mapM done
  clear done
  induction each with
  | nil => simp
  | cons here _ ih => exact List.forall_mem_cons.mpr ⟨⟨_, here⟩, ih⟩

/-- An outcome of a list is that of some member. -/
theorem mem_iff_of_mapM {f : α → Except ε β} {inputs : List α} {outputs : List β} (done : inputs.mapM f = .ok outputs)
    {b : β} : b ∈ outputs ↔ ∃ a ∈ inputs, f a = .ok b := by
  have each := forall₂_of_mapM done
  clear done
  induction each with
  | nil => simp
  | cons here _ ih => simp [ih, here, eq_comm]

/-- What holds of all members of a list holds of all outcomes when it does of each pair. -/
theorem forall_mem_iff_of_forall₂ {p : α → Prop} {q : β → Prop} {inputs : List α} {outputs : List β}
    (each : List.Forall₂ (fun a b => q b ↔ p a) inputs outputs) :
    (∀ b ∈ outputs, q b) ↔ ∀ a ∈ inputs, p a := by
  induction each with
  | nil => simp
  | cons here _ ih => rw [List.forall_mem_cons, List.forall_mem_cons, here, ih]

theorem map_eq_map_of_forall₂ {γ : Type*} {f : α → γ} {g : β → γ} {inputs : List α} {outputs : List β}
    (each : List.Forall₂ (fun a b => f a = g b) inputs outputs) : inputs.map f = outputs.map g := by
  rw [← List.forall₂_eq_eq_eq, List.forall₂_map_left_iff, List.forall₂_map_right_iff]
  exact each

/-- Nothing is at fault in a list when nothing is in its members. -/
theorem exists_mapM_eq_ok {f : α → Except ε β} {inputs : List α} (each : ∀ a ∈ inputs, ∃ b, f a = .ok b) :
    ∃ outputs, inputs.mapM f = .ok outputs := by
  induction inputs with
  | nil => exact ⟨[], rfl⟩
  | cons a inputs ih =>
    obtain ⟨b, first⟩ := each a List.mem_cons_self
    obtain ⟨outputs, others⟩ := ih fun own member => each own (List.mem_cons_of_mem a member)
    refine ⟨b :: outputs, ?_⟩
    rw [List.mapM_cons, first, others]
    rfl

end HeroSheet
