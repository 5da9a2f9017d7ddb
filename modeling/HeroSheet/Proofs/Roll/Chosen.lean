import HeroSheet.Proofs.Session.Once

/-!
Rolls that spend an effect. The effect is chosen by its name among those that the player may spend, and ended by
its name among all that are active: it is the one that is gone after the roll, and the only one, unless it is a
condition that shares its name with a buff.
-/

namespace HeroSheet

namespace Session

/-- The active effects that a name may choose: those of the name that do not apply by themselves. -/
def Choosable (s : Session) (name : String) (e : Effect) : Prop :=
  e ∈ s.activeEffects ∧ e.name = name ∧ e.autoApply = false

/-- The effect is gone; all others are active as they were, and so is the concentration. -/
structure Consumes (s after : Session) (e : Effect) : Prop where
  active : after.activeEffects = s.activeEffects.erase e
  lists : ∀ kind, after.effectsOf kind = (s.effectsOf kind).erase e
  concentration : after.concentratingOn = s.concentratingOn

section Removed

variable {s after : Session} {e : Effect} {name : String}

theorem choosable_of_optionalEffect (found : s.optionalEffect name = .ok e) : s.Choosable name e := by
  unfold optionalEffect at found
  cases first : s.activeEffects.find? fun e => e.name == name && !e.autoApply with
  | none =>
    rw [first] at found
    cases found
  | some own =>
    rw [first] at found
    obtain rfl := Except.ok.inj found
    have chosen := List.find?_some first
    simp only [Bool.and_eq_true, beq_iff_eq, Bool.not_eq_true'] at chosen
    exact ⟨List.mem_of_find?_eq_some first, chosen.1, chosen.2⟩

/-- A roll that succeeds with a choice leaves the session, but for its advantage, as if the first effect of the
name had been ended. -/
theorem exists_choosable {config : Config} {c : Character} {label formula : String} {kind : Option RollKind}
    {request : RollRequest}
    (made : s.prepareRoll config c label formula (some name) kind = .ok (request, after)) :
    ∃ e, s.Choosable name e ∧ after.calm = (s.removeEffect name).2.calm := by
  let call : RollCall := ⟨config, c, label, formula, some name, kind⟩
  have prepared : call.prepare s = .ok (request, after) := made
  obtain ⟨effect, chosen, same⟩ := exists_spent prepared
  obtain ⟨e, found, rfl⟩ := map_eq_ok_iff.mp chosen
  have choosable := choosable_of_optionalEffect found
  refine ⟨e, choosable, ?_⟩
  rw [← choosable.2.1]
  exact same

theorem Tidy.not_mem_effectsOf (tidy : s.Tidy) (kind : EffectKind) (other : e.kind ≠ kind) :
    e ∉ s.effectsOf kind := by
  intro member
  exact other (tidy.kinds kind e member)

private theorem Tidy.erase_activeEffects (tidy : s.Tidy) (e : Effect) :
    s.activeEffects.erase e = s.buffs.erase e ++ s.conditions.erase e := by
  unfold activeEffects
  by_cases buff : e ∈ s.buffs
  · have kind : e.kind ≠ .condition := by
      rw [tidy.kinds .buff e buff]
      decide
    have absent : e ∉ s.conditions := tidy.not_mem_effectsOf .condition kind
    rw [List.erase_append_left _ buff, List.erase_of_not_mem absent]
  · rw [List.erase_append_right _ buff, List.erase_of_not_mem buff]

/-- An effect that is first among those of its name is the one that is ended. -/
theorem lists_removeEffect (tidy : s.Tidy) (active : e ∈ s.activeEffects)
    (first : e.kind = .buff ∨ ∀ buff ∈ s.buffs, buff.name ≠ e.name) (kind : EffectKind) :
    (s.removeEffect e.name).2.effectsOf kind = (s.effectsOf kind).erase e := by
  have listed := tidy.mem_effectsOf active
  cases own : e.kind with
  | buff =>
    rw [own] at listed
    cases kind with
    | buff =>
      change (s.removeEffect e.name).2.buffs = s.buffs.erase e
      rw [buffs_removeEffect]
      exact eraseP_hasName (tidy.names .buff) listed
    | condition =>
      change (s.removeEffect e.name).2.conditions = s.conditions.erase e
      have found : s.buffs.any (Effect.hasName e.name) = true := any_hasName_iff.mpr ⟨e, listed, rfl⟩
      have absent : e ∉ s.conditions := tidy.not_mem_effectsOf .condition (by rw [own]; decide)
      rw [conditions_removeEffect, if_pos found, List.erase_of_not_mem absent]
  | condition =>
    rw [own] at listed first
    have absent := first.resolve_left (nomatch ·)
    have unnamed := any_hasName_eq_false_iff.mpr absent
    cases kind with
    | buff =>
      change (s.removeEffect e.name).2.buffs = s.buffs.erase e
      have missing : e ∉ s.buffs := fun member => absent e member rfl
      rw [buffs_removeEffect, List.eraseP_of_forall_not (List.any_eq_false.mp unnamed),
        List.erase_of_not_mem missing]
    | condition =>
      change (s.removeEffect e.name).2.conditions = s.conditions.erase e
      rw [conditions_removeEffect, unnamed]
      exact eraseP_hasName (tidy.names .condition) listed

/-- A session without the first effect of the name has lost just that effect. -/
theorem consumes_of_first (tidy : s.Tidy) (active : e ∈ s.activeEffects)
    (first : e.kind = .buff ∨ ∀ buff ∈ s.buffs, buff.name ≠ e.name)
    (ended : after.calm = (s.removeEffect e.name).2.calm) : s.Consumes after e := by
  have lists : ∀ kind, after.effectsOf kind = (s.effectsOf kind).erase e := by
    intro kind
    rw [effectsOf_of_calm_eq ended]
    exact lists_removeEffect tidy active first kind
  refine ⟨?_, lists, ?_⟩
  · rw [tidy.erase_activeEffects e]
    exact congrArg₂ (· ++ ·) (lists .buff) (lists .condition)
  · rw [concentratingOn_of_calm_eq ended]
    exact concentratingOn_removeEffect s e.name

/-- A condition that has a buff of its name before it stays. -/
theorem not_consumes_of_shared {buff : Effect} (listed : e ∈ s.conditions) (member : buff ∈ s.buffs)
    (shared : buff.name = e.name) (ended : after.calm = (s.removeEffect e.name).2.calm) :
    ¬ s.Consumes after e := by
  intro consumes
  have found : s.buffs.any (Effect.hasName e.name) = true := any_hasName_iff.mpr ⟨buff, member, shared⟩
  have taken := consumes.lists .condition
  rw [effectsOf_of_calm_eq ended] at taken
  change (s.removeEffect e.name).2.conditions = s.conditions.erase e at taken
  rw [conditions_removeEffect, if_pos found] at taken
  exact List.erase_eq_self_iff.mp taken.symm listed

end Removed

/-- A roll that succeeds with a choice consumes the chosen effect and nothing else, exactly when that is a buff or
no buff has its name. -/
theorem consumes_chosen_iff {s after : Session} {config : Config} {c : Character} {label formula name : String}
    {kind : Option RollKind} {request : RollRequest} (reached : s.Reachable)
    (made : s.prepareRoll config c label formula (some name) kind = .ok (request, after)) :
    (∃ e, s.Choosable name e) ∧
      ∀ e, s.Choosable name e →
        (s.Consumes after e ↔ e.kind = .buff ∨ ∀ buff ∈ s.buffs, buff.name ≠ name) := by
  obtain ⟨events, rfl⟩ := reached
  have tidy := tidy_performAll events
  obtain ⟨own, choosable, ended⟩ := exists_choosable made
  refine ⟨⟨own, choosable⟩, ?_⟩
  rintro e ⟨active, rfl, _⟩
  have listed := tidy.mem_effectsOf active
  constructor
  · intro consumes
    cases kind : e.kind with
    | buff => exact Or.inl rfl
    | condition =>
      rw [kind] at listed
      refine Or.inr ?_
      intro buff member shared
      exact not_consumes_of_shared listed member shared ended consumes
  · intro first
    exact consumes_of_first tidy active first ended

/-- Guidance is spent on a check, and the other effects stay. -/
theorem consumes_guidance :
    let s := empty.performAll [.addNamed "Bless", .addNamed "Guidance", .addNamed "Bane", .concentrate (some "Hex")]
    let after := (s.removeEffect "Guidance").2
    s.Reachable ∧
      s.prepareRoll (.ok .default) .plain "Stealth Check" "1d20" (some "Guidance") none =
        .ok (⟨"Stealth Check", "1d20 + 1d4", .check, ["[🙏 Guidance: 1d4]"], none⟩, after) ∧
      after.activeEffects.map (·.name) = ["Bless", "Bane"] ∧
      ∃ guidance, s.Choosable "Guidance" guidance ∧ s.Consumes after guidance := by
  intro s after
  have made : s.prepareRoll (.ok .default) .plain "Stealth Check" "1d20" (some "Guidance") none =
      .ok (⟨"Stealth Check", "1d20 + 1d4", .check, ["[🙏 Guidance: 1d4]"], none⟩, after) := by decide +kernel
  obtain ⟨⟨guidance, choosable⟩, consumes⟩ := consumes_chosen_iff ⟨_, rfl⟩ made
  have kinds : ∀ e ∈ s.activeEffects, e.name = "Guidance" → e.kind = .buff := by decide +kernel
  have first := kinds guidance choosable.1 choosable.2.1
  refine ⟨⟨_, rfl⟩, made, by decide +kernel, guidance, choosable, ?_⟩
  exact (consumes guidance choosable).mpr (Or.inl first)

/-- A buff that applies by itself. -/
def auraBuff : Effect := .buff "Aura" "" "" [("attack", .text "1d4")]

/-- A condition that the player may spend. -/
def auraCondition : Effect := .conditionOptional "Aura" "" "" [("skill", .text "1d4")]

/-- With both active, the roll adds what the condition gives and ends the buff. -/
theorem not_consumes_aura :
    let s := empty.performAll [.add auraBuff, .add auraCondition]
    let after := (s.removeEffect "Aura").2
    s.Reachable ∧ s.Choosable "Aura" auraCondition ∧
      s.prepareRoll (.ok .default) .plain "Stealth Check" "1d20" (some "Aura") none =
        .ok (⟨"Stealth Check", "1d20 + 1d4", .check, ["[ Aura: 1d4]"], none⟩, after) ∧
      after.buffs = [] ∧ after.conditions = [auraCondition] ∧ ¬ s.Consumes after auraCondition := by
  intro s after
  have left : after.conditions = [auraCondition] := by decide +kernel
  refine ⟨⟨_, rfl⟩, ⟨by decide +kernel, rfl, rfl⟩, by decide +kernel, by decide +kernel, left, ?_⟩
  intro consumes
  have taken : after.conditions = [] := consumes.lists .condition
  rw [left] at taken
  cases taken

end Session

end HeroSheet
