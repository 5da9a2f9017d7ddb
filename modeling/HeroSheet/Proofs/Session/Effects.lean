import HeroSheet.Session
import Mathlib.Data.List.Nodup

namespace HeroSheet

/-- The effect has this name. -/
def Effect.hasName (name : String) (e : Effect) : Bool := e.name == name

theorem any_hasName_iff {name : String} {effects : List Effect} :
    effects.any (Effect.hasName name) = true ↔ ∃ e ∈ effects, e.name = name := by
  simp only [List.any_eq_true, Effect.hasName, beq_iff_eq]

theorem any_hasName_eq_false_iff {name : String} {effects : List Effect} :
    effects.any (Effect.hasName name) = false ↔ ∀ e ∈ effects, e.name ≠ name := by
  simp only [List.any_eq_false, Effect.hasName, beq_iff_eq, ne_eq]

namespace Session

section Removed

theorem takeNamed?_eq (name : String) (effects : List Effect) :
    takeNamed? name effects =
      (effects.find? (Effect.hasName name)).map fun e => (e, effects.eraseP (Effect.hasName name)) := by
  induction effects with
  | nil => rfl
  | cons e es ih =>
    rw [takeNamed?, List.find?_cons, List.eraseP_cons]
    by_cases same : Effect.hasName name e = true
    · rw [same]
      exact if_pos same
    · rw [Bool.eq_false_iff.mpr same]
      refine (if_neg same).trans ?_
      rw [ih, Option.map_map]
      rfl

theorem removeEffect_eq (s : Session) (name : String) :
    s.removeEffect name =
      (s.activeEffects.find? (Effect.hasName name),
        if s.buffs.any (Effect.hasName name) then { s with buffs := s.buffs.eraseP (Effect.hasName name) }
        else { s with conditions := s.conditions.eraseP (Effect.hasName name) }) := by
  unfold removeEffect activeEffects
  rw [takeNamed?_eq, takeNamed?_eq, List.find?_append]
  cases inBuffs : s.buffs.find? (Effect.hasName name) with
  | some e =>
    have found : s.buffs.any (Effect.hasName name) = true :=
      List.any_eq_true.mpr ⟨e, List.mem_of_find?_eq_some inBuffs, List.find?_some inBuffs⟩
    rw [found]
    rfl
  | none =>
    have absent : s.buffs.any (Effect.hasName name) = false := by
      rw [List.any_eq_false]
      exact List.find?_eq_none.mp inBuffs
    rw [absent]
    cases inConditions : s.conditions.find? (Effect.hasName name) with
    | some e => rfl
    | none =>
      rw [List.eraseP_of_forall_not (List.find?_eq_none.mp inConditions)]
      rfl

variable (s : Session) (name : String)

theorem buffs_removeEffect : (s.removeEffect name).2.buffs = s.buffs.eraseP (Effect.hasName name) := by
  rw [removeEffect_eq]
  by_cases found : s.buffs.any (Effect.hasName name) = true
  · rw [if_pos found]
  · rw [if_neg found, List.eraseP_of_forall_not (List.any_eq_false.mp (Bool.eq_false_iff.mpr found))]

theorem conditions_removeEffect :
    (s.removeEffect name).2.conditions =
      if s.buffs.any (Effect.hasName name) then s.conditions
      else s.conditions.eraseP (Effect.hasName name) := by
  rw [removeEffect_eq]
  split <;> rfl

theorem concentratingOn_removeEffect : (s.removeEffect name).2.concentratingOn = s.concentratingOn := by
  rw [removeEffect_eq]
  split <;> rfl

private theorem activeEffects_removeEffect :
    (s.removeEffect name).2.activeEffects = s.activeEffects.eraseP (Effect.hasName name) := by
  unfold activeEffects
  rw [List.eraseP_append, buffs_removeEffect, conditions_removeEffect]
  by_cases found : s.buffs.any (Effect.hasName name) = true
  · rw [if_pos found, if_pos found]
  · rw [if_neg found, if_neg found,
      List.eraseP_of_forall_not (List.any_eq_false.mp (Bool.eq_false_iff.mpr found))]

end Removed

section Lists

variable {s t : Session} {e : Effect} {name : String}

theorem mem_activeEffects_iff : e ∈ s.activeEffects ↔ ∃ kind, e ∈ s.effectsOf kind := by
  unfold activeEffects
  rw [List.mem_append]
  constructor
  · rintro (buff | condition)
    · exact ⟨.buff, buff⟩
    · exact ⟨.condition, condition⟩
  · rintro ⟨kind, member⟩
    cases kind with
    | buff => exact Or.inl member
    | condition => exact Or.inr member

theorem isActive_iff : s.isActive name = true ↔ ∃ e ∈ s.activeEffects, e.name = name :=
  any_hasName_iff

/-- The session has no effects but those of another, in their order there. -/
def Within (t s : Session) : Prop := ∀ kind, (t.effectsOf kind).Sublist (s.effectsOf kind)

theorem within_of_lists_eq (buffs : t.buffs = s.buffs) (conditions : t.conditions = s.conditions) :
    t.Within s := by
  intro kind
  cases kind with
  | buff =>
    change t.buffs.Sublist s.buffs
    rw [buffs]
  | condition =>
    change t.conditions.Sublist s.conditions
    rw [conditions]

theorem within_removeEffect (s : Session) (name : String) : (s.removeEffect name).2.Within s := by
  intro kind
  cases kind with
  | buff =>
    change (s.removeEffect name).2.buffs.Sublist s.buffs
    rw [buffs_removeEffect]
    exact List.eraseP_sublist
  | condition =>
    change (s.removeEffect name).2.conditions.Sublist s.conditions
    rw [conditions_removeEffect]
    split
    · exact List.Sublist.refl _
    · exact List.eraseP_sublist

theorem Within.mem_activeEffects (within : t.Within s) (member : e ∈ t.activeEffects) : e ∈ s.activeEffects := by
  obtain ⟨kind, own⟩ := mem_activeEffects_iff.mp member
  exact mem_activeEffects_iff.mpr ⟨kind, (within kind).subset own⟩

/-- The session with one effect more, last in the list of its kind. -/
def appended (s : Session) (e : Effect) : Session :=
  match e.kind with
  | .buff => { s with buffs := s.buffs ++ [e] }
  | .condition => { s with conditions := s.conditions ++ [e] }

theorem effectsOf_appended (s : Session) (e : Effect) (kind : EffectKind) :
    (s.appended e).effectsOf kind = if e.kind = kind then s.effectsOf kind ++ [e] else s.effectsOf kind := by
  unfold appended
  cases e.kind <;> cases kind <;> rfl

theorem mem_activeEffects_appended {x : Effect} :
    x ∈ (s.appended e).activeEffects ↔ x ∈ s.activeEffects ∨ x = e := by
  rw [mem_activeEffects_iff, mem_activeEffects_iff]
  simp only [effectsOf_appended]
  constructor
  · rintro ⟨kind, member⟩
    split at member
    · rcases List.mem_append.mp member with old | new
      · exact Or.inl ⟨kind, old⟩
      · exact Or.inr (List.mem_singleton.mp new)
    · exact Or.inl ⟨kind, member⟩
  · rintro (⟨kind, old⟩ | rfl)
    · refine ⟨kind, ?_⟩
      split
      · exact List.mem_append_left _ old
      · exact old
    · refine ⟨x.kind, ?_⟩
      rw [if_pos rfl]
      exact List.mem_concat_self

/-- An effect is added when the list of its kind has none of its name; else nothing is. -/
theorem addEffect_cases (s : Session) (e : Effect) :
    (∃ present ∈ s.effectsOf e.kind, present.name = e.name ∧ s.addEffect e = (present, s)) ∨
      ((∀ own ∈ s.effectsOf e.kind, own.name ≠ e.name) ∧ s.addEffect e = (e, s.appended e)) := by
  unfold addEffect existing?
  cases found : (s.effectsOf e.kind).find? fun own => own.name == e.name with
  | some present =>
    have same := List.find?_some found
    exact Or.inl ⟨present, List.mem_of_find?_eq_some found, beq_iff_eq.mp same, rfl⟩
  | none =>
    refine Or.inr ⟨?_, ?_⟩
    · intro own member same
      exact List.find?_eq_none.mp found own member (beq_iff_eq.mpr same)
    · unfold appended
      cases e.kind <;> rfl

theorem concentratingOn_addEffect (s : Session) (e : Effect) :
    (s.addEffect e).2.concentratingOn = s.concentratingOn := by
  rcases addEffect_cases s e with ⟨_, _, _, same⟩ | ⟨_, same⟩
  · rw [same]
  · rw [same, appended]
    cases e.kind <;> rfl

end Lists

/-- Every effect is in the list of its kind, and no two effects of a list share a name. -/
structure Tidy (s : Session) : Prop where
  kinds : ∀ kind, ∀ e ∈ s.effectsOf kind, e.kind = kind
  names : ∀ kind, ((s.effectsOf kind).map (·.name)).Nodup

/-- Active effects that share a name are of one kind. -/
def KindsAgree (s : Session) : Prop :=
  ∀ x ∈ s.activeEffects, ∀ y ∈ s.activeEffects, x.name = y.name → x.kind = y.kind

section Tidy

variable {s t : Session} {e : Effect} {name : String}

theorem tidy_empty : empty.Tidy := by
  constructor
  · intro kind e member
    cases kind <;> cases member
  · intro kind
    cases kind <;> exact List.nodup_nil

theorem Tidy.within (tidy : s.Tidy) (within : t.Within s) : t.Tidy := by
  constructor
  · intro kind e member
    exact tidy.kinds kind e ((within kind).subset member)
  · intro kind
    exact (tidy.names kind).sublist ((within kind).map _)

theorem Tidy.appended (tidy : s.Tidy) (absent : ∀ own ∈ s.effectsOf e.kind, own.name ≠ e.name) :
    (s.appended e).Tidy := by
  constructor
  · intro kind x member
    rw [effectsOf_appended] at member
    split at member
    · rename_i same
      rcases List.mem_append.mp member with old | new
      · exact tidy.kinds kind x old
      · rw [List.mem_singleton.mp new]
        exact same
    · exact tidy.kinds kind x member
  · intro kind
    rw [effectsOf_appended]
    split
    · rename_i same
      subst same
      rw [List.map_append, List.nodup_append]
      refine ⟨tidy.names e.kind, List.nodup_singleton _, ?_⟩
      intro own listed new single
      obtain ⟨x, member, rfl⟩ := List.mem_map.mp listed
      rw [List.map_singleton, List.mem_singleton] at single
      rw [single]
      exact absent x member
    · exact tidy.names kind

theorem Tidy.addEffect (tidy : s.Tidy) (e : Effect) : (s.addEffect e).2.Tidy := by
  rcases addEffect_cases s e with ⟨present, _, _, added⟩ | ⟨absent, added⟩
  · rw [added]
    exact tidy
  · rw [added]
    exact tidy.appended absent

theorem Tidy.mem_effectsOf (tidy : s.Tidy) (active : e ∈ s.activeEffects) : e ∈ s.effectsOf e.kind := by
  obtain ⟨kind, member⟩ := mem_activeEffects_iff.mp active
  rw [tidy.kinds kind e member]
  exact member

/-- In a tidy session only effects of different kinds can share a name. -/
theorem Tidy.nodup_names_iff (tidy : s.Tidy) : (s.activeEffects.map (·.name)).Nodup ↔ s.KindsAgree := by
  constructor
  · intro distinct x first y second same
    rw [List.inj_on_of_nodup_map distinct first second same]
  · intro agree
    unfold activeEffects
    rw [List.map_append, List.nodup_append]
    refine ⟨tidy.names .buff, tidy.names .condition, ?_⟩
    intro own listed other listed' same
    obtain ⟨x, buff, rfl⟩ := List.mem_map.mp listed
    obtain ⟨y, condition, rfl⟩ := List.mem_map.mp listed'
    have kinds := agree x (List.mem_append_left _ buff) y (List.mem_append_right _ condition) same
    rw [tidy.kinds .buff x buff, tidy.kinds .condition y condition] at kinds
    cases kinds

theorem KindsAgree.within (agree : s.KindsAgree) (within : t.Within s) : t.KindsAgree := by
  intro x first y second same
  exact agree x (within.mem_activeEffects first) y (within.mem_activeEffects second) same

theorem KindsAgree.addEffect (agree : s.KindsAgree)
    (apart : ∀ other ∈ s.activeEffects, other.name = e.name → other.kind = e.kind) :
    (s.addEffect e).2.KindsAgree := by
  rcases addEffect_cases s e with ⟨present, _, _, added⟩ | ⟨_, added⟩
  · rw [added]
    exact agree
  · rw [added]
    intro x first y second same
    rcases mem_activeEffects_appended.mp first with old | rfl
    · rcases mem_activeEffects_appended.mp second with old' | rfl
      · exact agree x old y old' same
      · exact apart x old same
    · rcases mem_activeEffects_appended.mp second with old' | rfl
      · exact (apart y old' same.symm).symm
      · rfl

/-- Where names are distinct, an effect that was ended is active no more. -/
theorem isActive_removeEffect (distinct : (s.activeEffects.map (·.name)).Nodup) (name : String) :
    (s.removeEffect name).2.isActive name = false := by
  apply Bool.eq_false_iff.mpr
  intro active
  obtain ⟨e, member, same⟩ := isActive_iff.mp active
  rw [activeEffects_removeEffect] at member
  have listed : name ∈ (s.activeEffects.map (·.name)).erase name := by
    rw [List.erase_eq_eraseP', List.eraseP_map]
    exact List.mem_map.mpr ⟨e, member, same⟩
  exact distinct.not_mem_erase listed

/-- Where names are distinct, the first effect of a name is the one that has it. -/
theorem eraseP_hasName {effects : List Effect} (distinct : (effects.map (·.name)).Nodup) (member : e ∈ effects) :
    effects.eraseP (Effect.hasName e.name) = effects.erase e := by
  induction effects with
  | nil => cases member
  | cons x effects ih =>
    rw [List.map_cons, List.nodup_cons] at distinct
    rw [List.eraseP_cons, List.erase_cons]
    by_cases same : x = e
    · subst same
      rw [if_pos (beq_self_eq_true x), show Effect.hasName x.name x = true from beq_self_eq_true x.name]
      rfl
    · have later := (List.mem_cons.mp member).resolve_left (Ne.symm same)
      have other : Effect.hasName e.name x = false := by
        apply beq_eq_false_iff_ne.mpr
        intro shared
        exact distinct.1 (List.mem_map.mpr ⟨e, later, shared.symm⟩)
      rw [if_neg (by simpa using same), other, ih distinct.2 later]
      rfl

end Tidy

end Session

end HeroSheet
