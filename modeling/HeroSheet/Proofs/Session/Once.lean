import HeroSheet.Proofs.Roll.AdvantageSpent
import HeroSheet.Proofs.Session.Effects

namespace HeroSheet

/-- What happens to a session. -/
inductive SessionEvent where
  | add (effect : Effect)
  | addNamed (name : String)
  | remove (name : String)
  | roll (call : RollCall)
  | setAdvantage (state : Advantage)
  | concentrate (spell : Option String)

/-- The effect that an event is to activate. -/
def SessionEvent.added? : SessionEvent → Option Effect
  | .add effect => some effect
  | .addNamed name => Effect.ofName? name
  | _ => none

namespace Session

/-- The session after an event; one that fails leaves it as it is. -/
def perform (s : Session) : SessionEvent → Session
  | .add effect => (s.addEffect effect).2
  | .addNamed name =>
    match s.addNamed name with
    | .ok (_, after) => after
    | .error _ => s
  | .remove name => (s.removeEffect name).2
  | .roll call => call.sessionAfter s
  | .setAdvantage state => s.withAdvantage state
  | .concentrate spell => (s.concentrate spell).2

/-- The session after a run. -/
def performAll (s : Session) (events : List SessionEvent) : Session := events.foldl perform s

/-- The session comes out of some run. -/
def Reachable (s : Session) : Prop := ∃ events, s = empty.performAll events

/-- At no point of the run do two active effects share a name; to add an effect under a name that is active
changes nothing, and after an effect was ended its name is not active. -/
structure ActiveOnce (events : List SessionEvent) : Prop where
  distinct : ∀ front, front <+: events → ((empty.performAll front).activeEffects.map (·.name)).Nodup
  idle : ∀ front event, front ++ [event] <+: events → ∀ e, event.added? = some e →
    (empty.performAll front).isActive e.name = true →
      (empty.performAll front).perform event = empty.performAll front
  ended : ∀ front, front <+: events → ∀ name,
    ((empty.performAll front).removeEffect name).2.isActive name = false

/-- No effect is added while its name is that of an active effect of the other kind. -/
def AddsApart (events : List SessionEvent) : Prop :=
  ∀ front event, front ++ [event] <+: events → ∀ e, event.added? = some e →
    ∀ other ∈ (empty.performAll front).activeEffects, other.name = e.name → other.kind = e.kind

section Step

variable {s t : Session} {call : RollCall} {event : SessionEvent} {e : Effect}

theorem effectsOf_of_calm_eq (same : t.calm = s.calm) (kind : EffectKind) : t.effectsOf kind = s.effectsOf kind := by
  change t.calm.effectsOf kind = s.calm.effectsOf kind
  rw [same]

theorem concentratingOn_of_calm_eq (same : t.calm = s.calm) : t.concentratingOn = s.concentratingOn := by
  change t.calm.concentratingOn = s.calm.concentratingOn
  rw [same]

/-- But for the advantage, a roll that succeeds leaves the session without the chosen effect. -/
theorem exists_spent {request : RollRequest} (made : call.prepare s = .ok (request, t)) :
    ∃ effect, s.chosenEffect call.chosen = .ok effect ∧ t.calm = (s.spend effect).calm := by
  rw [call.prepare_eq] at made
  obtain ⟨⟨plain, before⟩, reached, same⟩ := map_eq_ok_iff.mp made
  obtain ⟨effect, chosen, reached⟩ := bind_eq_ok_iff.mp reached
  obtain ⟨resolved, _, reached⟩ := bind_eq_ok_iff.mp reached
  obtain ⟨added, _, reached⟩ := bind_eq_ok_iff.mp reached
  obtain ⟨_, rfl⟩ := Prod.mk.inj (Except.ok.inj reached)
  obtain ⟨_, rfl⟩ := Prod.mk.inj same
  exact ⟨effect, mapError_eq_ok_iff.mp chosen, calm_advantaged plain (s.spend effect)⟩

theorem concentratingOn_of_prepare {request : RollRequest} (made : call.prepare s = .ok (request, t)) :
    t.concentratingOn = s.concentratingOn := by
  obtain ⟨effect, _, same⟩ := exists_spent made
  rw [concentratingOn_of_calm_eq same]
  cases effect with
  | none => rfl
  | some effect => exact concentratingOn_removeEffect s effect.name

private theorem within_spend (s : Session) (chosen : Option Effect) : (s.spend chosen).Within s := by
  cases chosen with
  | none => exact within_of_lists_eq rfl rfl
  | some effect => exact within_removeEffect s effect.name

private theorem within_sessionAfter (call : RollCall) (s : Session) : (call.sessionAfter s).Within s := by
  unfold RollCall.sessionAfter
  cases made : call.prepare s with
  | error fault => exact within_of_lists_eq rfl rfl
  | ok pair =>
    obtain ⟨effect, _, same⟩ := exists_spent made
    intro kind
    rw [effectsOf_of_calm_eq same]
    exact within_spend s effect kind

private theorem addNamed_of_known {name : String} (known : Effect.ofName? name = some e) :
    s.addNamed name = .ok (s.addEffect e) := by
  unfold addNamed catalogEffect
  rw [known]
  rfl

private theorem exists_fault_of_unknown (s : Session) {name : String} (unknown : Effect.ofName? name = none) :
    ∃ fault, s.addNamed name = .error fault := by
  unfold addNamed catalogEffect
  rw [unknown]
  exact ⟨_, rfl⟩

/-- An event that is to activate an effect does so. -/
theorem perform_of_added (added : event.added? = some e) : s.perform event = (s.addEffect e).2 := by
  cases event with
  | add effect =>
    obtain rfl := Option.some.inj added
    rfl
  | addNamed name =>
    simp only [perform, addNamed_of_known added]
  | remove name => cases added
  | roll call => cases added
  | setAdvantage state => cases added
  | concentrate spell => cases added

/-- Any other event only ends effects. -/
theorem within_perform (s : Session) (nothing : event.added? = none) : (s.perform event).Within s := by
  cases event with
  | add effect => cases nothing
  | addNamed name =>
    obtain ⟨fault, failed⟩ := exists_fault_of_unknown s nothing
    simp only [perform, failed]
    exact within_of_lists_eq rfl rfl
  | remove name => exact within_removeEffect s name
  | roll call => exact within_sessionAfter call s
  | setAdvantage state => exact within_of_lists_eq rfl rfl
  | concentrate spell => exact within_of_lists_eq rfl rfl

theorem Tidy.perform (tidy : s.Tidy) (event : SessionEvent) : (s.perform event).Tidy := by
  cases added : event.added? with
  | none => exact tidy.within (within_perform s added)
  | some e =>
    rw [perform_of_added added]
    exact tidy.addEffect e

theorem KindsAgree.perform (agree : s.KindsAgree)
    (apart : ∀ e, event.added? = some e → ∀ other ∈ s.activeEffects, other.name = e.name → other.kind = e.kind) :
    (s.perform event).KindsAgree := by
  cases added : event.added? with
  | none => exact agree.within (within_perform s added)
  | some e =>
    rw [perform_of_added added]
    exact agree.addEffect (apart e added)

private theorem mem_activeEffects_perform (active : e ∈ (s.perform event).activeEffects) :
    e ∈ s.activeEffects ∨ event.added? = some e := by
  cases added : event.added? with
  | none => exact Or.inl ((within_perform s added).mem_activeEffects active)
  | some new =>
    rw [perform_of_added added] at active
    rcases addEffect_cases s new with ⟨present, _, _, same⟩ | ⟨_, same⟩
    · rw [same] at active
      exact Or.inl active
    · rw [same] at active
      rcases mem_activeEffects_appended.mp active with old | rfl
      · exact Or.inl old
      · exact Or.inr rfl

end Step

section Run

variable {events : List SessionEvent}

theorem performAll_concat (s : Session) (front : List SessionEvent) (event : SessionEvent) :
    s.performAll (front ++ [event]) = (s.performAll front).perform event :=
  List.foldl_concat perform s event front

theorem tidy_performAll (events : List SessionEvent) : (empty.performAll events).Tidy := by
  induction events using List.reverseRecOn with
  | nil => exact tidy_empty
  | append_singleton front event ih =>
    rw [performAll_concat]
    exact ih.perform event

theorem AddsApart.of_isPrefix {front : List SessionEvent} (apart : AddsApart events) (within : front <+: events) :
    AddsApart front := fun earlier event before => apart earlier event (before.trans within)

private theorem AddsApart.kindsAgree (apart : AddsApart events) : (empty.performAll events).KindsAgree := by
  induction events using List.reverseRecOn with
  | nil =>
    intro x member
    cases member
  | append_singleton front event ih =>
    have before := ih (apart.of_isPrefix (List.prefix_append front [event]))
    rw [performAll_concat]
    exact before.perform (apart front event (List.prefix_refl _))

private theorem exists_added {e : Effect} (active : e ∈ (empty.performAll events).activeEffects) :
    ∃ event ∈ events, event.added? = some e := by
  induction events using List.reverseRecOn with
  | nil => cases active
  | append_singleton front event ih =>
    rw [performAll_concat] at active
    rcases mem_activeEffects_perform active with old | new
    · obtain ⟨earlier, member, added⟩ := ih old
      exact ⟨earlier, List.mem_append_left _ member, added⟩
    · exact ⟨event, List.mem_concat_self, new⟩

theorem activeOnce_of_addsApart (apart : AddsApart events) : ActiveOnce events := by
  have distinct : ∀ front, front <+: events → ((empty.performAll front).activeEffects.map (·.name)).Nodup := by
    intro front within
    exact (tidy_performAll front).nodup_names_iff.mpr (apart.of_isPrefix within).kindsAgree
  refine ⟨distinct, ?_, fun front within => isActive_removeEffect (distinct front within)⟩
  intro front event within e added active
  obtain ⟨other, member, same⟩ := isActive_iff.mp active
  rw [perform_of_added added]
  rcases addEffect_cases (empty.performAll front) e with ⟨present, _, _, unchanged⟩ | ⟨absent, _⟩
  · rw [unchanged]
  · -- the active effect is of the same kind, so that it is in the list that was searched
    have kind := apart front event within e added other member same
    have listed := (tidy_performAll front).mem_effectsOf member
    rw [kind] at listed
    exact absurd same (absent other listed)

private theorem addsApart_of_activeOnce (once : ActiveOnce events) : AddsApart events := by
  intro front event within e added other member same
  have unchanged := once.idle front event within e added (isActive_iff.mpr ⟨other, member, same⟩)
  rw [perform_of_added added] at unchanged
  rcases addEffect_cases (empty.performAll front) e with ⟨present, listed, named, _⟩ | ⟨_, appended⟩
  · have own := mem_activeEffects_iff.mpr ⟨e.kind, listed⟩
    have before : front <+: events := (List.prefix_append front [event]).trans within
    have one := List.inj_on_of_nodup_map (once.distinct front before) member own (same.trans named.symm)
    rw [one]
    exact (tidy_performAll front).kinds e.kind present listed
  · rw [appended] at unchanged
    change (empty.performAll front).appended e = empty.performAll front at unchanged
    have longer := effectsOf_appended (empty.performAll front) e e.kind
    rw [unchanged, if_pos rfl] at longer
    exact absurd (List.self_eq_append_right.mp longer) (List.cons_ne_nil e [])

/-- Effects are active at most once through a run exactly when it adds none under the name of an active effect of
the other kind. -/
theorem activeOnce_iff_addsApart (events : List SessionEvent) : ActiveOnce events ↔ AddsApart events :=
  ⟨addsApart_of_activeOnce, activeOnce_of_addsApart⟩

/-- A condition under the name of a buff of the catalog. -/
def shadow : Effect := .condition "Bless" "" "" []

/-- It is added although its name is active, and when the name has been ended it still is. -/
theorem not_activeOnce_bless :
    (empty.performAll [.addNamed "Bless"]).isActive "Bless" = true ∧
      (empty.performAll [.addNamed "Bless", .add shadow]).activeEffects.map (·.name) = ["Bless", "Bless"] ∧
      ((empty.performAll [.addNamed "Bless", .add shadow]).removeEffect "Bless").2.isActive "Bless" = true ∧
      ¬ ActiveOnce [.addNamed "Bless", .add shadow] := by
  have both : (empty.performAll [.addNamed "Bless", .add shadow]).activeEffects.map (·.name) =
      ["Bless", "Bless"] := by decide +kernel
  refine ⟨by decide +kernel, both, by decide +kernel, ?_⟩
  intro once
  have distinct := once.distinct _ (List.prefix_refl _)
  rw [both] at distinct
  exact absurd distinct (by decide)

/-- A run that adds effects of the catalog only has each of them active at most once. -/
theorem activeOnce_of_catalog
    (known : ∀ event ∈ events, ∀ e, event.added? = some e → Effect.ofName? e.name = some e) : ActiveOnce events := by
  apply activeOnce_of_addsApart
  intro front event within e added other member same
  obtain ⟨earlier, listed, addedEarlier⟩ := exists_added member
  have before : front <+: events := (List.prefix_append front [event]).trans within
  have first := known earlier (before.subset listed) other addedEarlier
  have second := known event (within.subset List.mem_concat_self) e added
  rw [same, second] at first
  rw [Option.some.inj first]

end Run

end Session

end HeroSheet
