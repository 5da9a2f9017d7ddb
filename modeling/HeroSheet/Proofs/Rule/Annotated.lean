import HeroSheet.Rule.Apply

namespace HeroSheet

/-- All that an option is but for its note. -/
def ActionOption.face (o : ActionOption) : OptionKind × String × Option String × String :=
  (o.kind, o.label, o.formula, o.icon)

/-- The options are as they were but for notes: all notes are kept, or all options have one and the same. -/
structure RuleApplication.Annotates (application : RuleApplication) (options : List ActionOption) : Prop where
  faces : application.options.map ActionOption.face = options.map ActionOption.face
  notes : application.options = options ∨ ∃ note, ∀ o ∈ application.options, o.note = some note

theorem RuleApplication.annotates_of_options_eq {application : RuleApplication} {options : List ActionOption}
    (same : application.options = options) : application.Annotates options :=
  ⟨congrArg (List.map ActionOption.face) same, Or.inl same⟩

private theorem RuleApplication.annotates_annotated (options : List ActionOption) (note : String) :
    (annotated options note).Annotates options := by
  refine ⟨?_, Or.inr ⟨note, fun o member => ?_⟩⟩
  · unfold annotated
    rw [List.map_map]
    rfl
  · obtain ⟨own, _, rfl⟩ := List.mem_map.mp member
    rfl

namespace Rule

/-- A spell that is left to the game master. -/
def ClearsOptions (rule : Rule) : Prop := rule.category = .spell ∧ rule.shape = .tooComplicated

/-- A spell whose damage depends on the situation. -/
def OffersCasting (rule : Rule) : Prop :=
  rule.category = .spell ∧ ∃ condition formula, rule.shape = .conditionalDamage condition formula

/-- A feature or a maneuver whose outcome is left to the game master. -/
def IsUtility (rule : Rule) : Prop := rule.category ≠ .spell ∧ rule.shape = .utility

section Outcome

variable {rule : Rule} {options : List ActionOption}

/-- What a rule can make of options. -/
inductive Outcome (rule : Rule) (options : List ActionOption) : RuleApplication → Prop where
  | cleared (clears : rule.ClearsOptions) : Outcome rule options ⟨[], true⟩
  | offered (offers : rule.OffersCasting) (present : options ≠ []) (note : String) :
      Outcome rule options (.unchanged (castOption note :: options))
  | suppressed (utility : rule.IsUtility) : Outcome rule options ⟨options, true⟩
  | annotated (kept : ¬ rule.ClearsOptions) (alone : ¬ rule.OffersCasting) (decided : ¬ rule.IsUtility)
      (note : String) : Outcome rule options (.annotated options note)
  | unchanged (kept : ¬ rule.ClearsOptions) (alone : options ≠ [] → ¬ rule.OffersCasting)
      (decided : ¬ rule.IsUtility) : Outcome rule options (.unchanged options)

private theorem outcome_applyToSpell (spell : rule.category = .spell) (options : List ActionOption) :
    Outcome rule options (rule.applyToSpell options) := by
  have decided : ¬ rule.IsUtility := fun utility => utility.1 spell
  unfold applyToSpell
  split
  · rename_i shape
    exact .annotated (by simp [ClearsOptions, shape]) (by simp [OffersCasting, shape]) decided _
  · rename_i shape
    exact .cleared ⟨spell, shape⟩
  · rename_i shape
    exact .annotated (by simp [ClearsOptions, shape]) (by simp [OffersCasting, shape]) decided _
  · rename_i condition formula shape
    split
    · rename_i empty
      obtain rfl := List.isEmpty_iff.mp empty
      exact .unchanged (by simp [ClearsOptions, shape]) (fun present => absurd rfl present) decided
    · rename_i present
      exact .offered ⟨spell, condition, formula, shape⟩ (by simpa using present) _
  · rename_i healing complicated reusable conditional
    refine .unchanged (fun clears => complicated clears.2) (fun _ offers => ?_) decided
    obtain ⟨_, condition, formula, shape⟩ := offers
    exact conditional condition formula shape

private theorem outcome_applyToFeature (feature : rule.category ≠ .spell) (options : List ActionOption) :
    Outcome rule options (rule.applyToFeature options) := by
  have kept : ¬ rule.ClearsOptions := fun clears => feature clears.1
  have alone : ¬ rule.OffersCasting := fun offers => feature offers.1
  unfold applyToFeature
  split
  · rename_i shape
    exact .suppressed ⟨feature, shape⟩
  · rename_i other
    have decided : ¬ rule.IsUtility := fun utility => other utility.2
    split
    · exact .annotated kept alone decided _
    · exact .unchanged kept (fun _ => alone) decided

private theorem outcome_apply (rule : Rule) (options : List ActionOption) :
    Outcome rule options (apply (some rule) options) := by
  by_cases spell : rule.category = .spell
  · simp only [apply, if_pos spell]
    exact outcome_applyToSpell spell options
  · simp only [apply, if_neg spell]
    exact outcome_applyToFeature spell options

end Outcome

/-- What is made of options alters none of their rolls: the rule may put notes on them, clear them, or put one option
without a formula in front. -/
structure AltersNoRoll (rule : Option Rule) (options : List ActionOption) (application : RuleApplication) : Prop where
  cleared : (∃ r ∈ rule, r.ClearsOptions) → application.options = []
  offered : options ≠ [] → (∃ r ∈ rule, r.OffersCasting) →
    ∃ cast : ActionOption, cast.kind = .cast ∧ cast.formula = none ∧ application.options = cast :: options
  annotated : (¬ ∃ r ∈ rule, r.ClearsOptions) → (options ≠ [] → ¬ ∃ r ∈ rule, r.OffersCasting) →
    application.Annotates options
  buttons : application.skipButtons = true ↔ ∃ r ∈ rule, r.ClearsOptions ∨ r.IsUtility

section Options

variable {rule : Rule} {options : List ActionOption} {application : RuleApplication}

theorem ClearsOptions.not_offersCasting (clears : rule.ClearsOptions) : ¬ rule.OffersCasting := by
  rintro ⟨_, condition, formula, shape⟩
  exact RuleShape.noConfusion (clears.2.symm.trans shape)

private theorem IsUtility.not_clearsOptions (utility : rule.IsUtility) : ¬ rule.ClearsOptions :=
  fun clears => utility.1 clears.1

theorem IsUtility.not_offersCasting (utility : rule.IsUtility) : ¬ rule.OffersCasting :=
  fun offers => utility.1 offers.1

private theorem OffersCasting.not_suppresses (offers : rule.OffersCasting) :
    ¬ (rule.ClearsOptions ∨ rule.IsUtility) := by
  rintro (clears | utility)
  · exact clears.not_offersCasting offers
  · exact utility.not_offersCasting offers

private theorem Outcome.altersNoRoll (outcome : Outcome rule options application) :
    AltersNoRoll (some rule) options application := by
  constructor <;> simp only [Option.mem_some_iff, exists_eq_left']
  · intro clears
    cases outcome with
    | cleared => rfl
    | offered offers => exact absurd offers clears.not_offersCasting
    | suppressed utility => exact absurd clears utility.not_clearsOptions
    | annotated kept | unchanged kept => exact absurd clears kept
  · intro present offers
    cases outcome with
    | cleared clears => exact absurd offers clears.not_offersCasting
    | offered _ _ note => exact ⟨castOption note, rfl, rfl, rfl⟩
    | suppressed utility => exact absurd offers utility.not_offersCasting
    | annotated _ alone => exact absurd offers alone
    | unchanged _ alone => exact absurd offers (alone present)
  · intro kept alone
    cases outcome with
    | cleared clears => exact absurd clears kept
    | offered offers present => exact absurd offers (alone present)
    | annotated _ _ _ note => exact RuleApplication.annotates_annotated options note
    | suppressed | unchanged => exact RuleApplication.annotates_of_options_eq rfl
  · cases outcome with
    | cleared clears => exact iff_of_true rfl (Or.inl clears)
    | offered offers => exact iff_of_false Bool.false_ne_true offers.not_suppresses
    | suppressed utility => exact iff_of_true rfl (Or.inr utility)
    | annotated kept _ decided | unchanged kept _ decided =>
      exact iff_of_false Bool.false_ne_true (not_or.mpr ⟨kept, decided⟩)

theorem altersNoRoll_apply (rule : Option Rule) (options : List ActionOption) :
    AltersNoRoll rule options (apply rule options) := by
  cases rule with
  | some rule => exact (outcome_apply rule options).altersNoRoll
  | none =>
    refine ⟨by simp, by simp, fun _ _ => RuleApplication.annotates_of_options_eq rfl, ?_⟩
    simp [apply, RuleApplication.unchanged]

/-- A rule for features alters nothing but notes, and so does the lack of one. -/
theorem annotates_apply_of_feature {rule : Option Rule} (feature : ∀ r ∈ rule, r.category ≠ .spell)
    (options : List ActionOption) : (apply rule options).Annotates options := by
  refine (altersNoRoll_apply rule options).annotated ?_ fun _ => ?_
  · rintro ⟨r, member, clears⟩
    exact feature r member clears.1
  · rintro ⟨r, member, offers⟩
    exact feature r member offers.1

end Options

end Rule

end HeroSheet
