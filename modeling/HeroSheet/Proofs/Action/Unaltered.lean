import HeroSheet.Action.Use
import HeroSheet.Proofs.Rule.Annotated
import HeroSheet.Proofs.Rule.Catalog

namespace HeroSheet

/-- A roll is of the kind that has the name of the option's kind. -/
theorem OptionKind.rollKind?_eq (kind : OptionKind) : kind.rollKind? = RollKind.ofName? kind.name := by
  cases kind <;> rfl

private theorem OptionKind.name_rollKind? {kind : OptionKind} {rolled : RollKind}
    (rolls : kind.rollKind? = some rolled) :
    rolled.name = kind.name := by
  rw [rollKind?_eq] at rolls
  exact beq_iff_eq.mp (List.find?_some (p := fun own : RollKind => own.name == kind.name) rolls)

/-- The option has a formula to roll. -/
def ActionOption.hasFormula (o : ActionOption) : Bool := (Rule.nonempty o.formula).isSome

namespace Action

/-- The rule that is found for an action is one for features and maneuvers, if there is any. -/
def FindsFeatures (find : Settings → Option Rule) : Prop :=
  ∀ settings, ∀ rule ∈ find settings, rule.category ∈ featureCategories

/-- The options of an action under the rule that is found for it. -/
def optionsUnder (find : Settings → Option Rule) (action : Action) (config : Config) :
    Except ActionFault RuleApplication := do
  let plain ← action.plainOptions.mapError .attackBonus
  let settings ← config.mapError .configuration
  .ok (Rule.apply (find settings) plain)

/-- Using an action under the rule that is found for it. -/
def useUnder (find : Settings → Option Rule) (action : Action) (config : Config) (c : Option Character) :
    Except ActionFault ActionResolution := do
  let application ← action.optionsUnder find config
  let rolls ← (application.options.mapM (action.optionRoll config c)).mapError .configuration
  .ok ⟨action.name, rolls.flatten, Rule.nonempty (some action.description),
    if application.skipButtons then some application else none⟩

private theorem use_eq_useUnder (action : Action) (config : Config) (c : Option Character) :
    action.use config c = action.useUnder (fun settings => action.rule? settings c) config c := rfl

private theorem findsFeatures_rule? (action : Action) (c : Option Character) :
    FindsFeatures fun settings => action.rule? settings c :=
  fun _ _ found => RuleCatalog.filed_bundled.lookupFirst found

section Options

variable {action : Action} {config : Config} {c : Option Character} {find other : Settings → Option Rule}
  {plain : List ActionOption} {application : RuleApplication}

theorem FindsFeatures.not_spell (features : FindsFeatures find) (settings : Settings) :
    ∀ rule ∈ find settings, rule.category ≠ .spell := by
  intro rule found spell
  have listed := features settings rule found
  rw [spell] at listed
  exact absurd listed (by decide)

/-- Every option that an action has by itself is for a roll. -/
theorem rollKind?_plainOptions (built : action.plainOptions = .ok plain) :
    ∀ o ∈ plain, ∃ kind, o.kind.rollKind? = some kind := by
  obtain ⟨attack, attacks, rfl⟩ := map_eq_ok_iff.mp built
  intro o member
  rcases List.mem_append.mp member with first | later
  · unfold attackOption at attacks
    split at attacks
    · obtain rfl := Except.ok.inj attacks
      cases first
    · split at attacks
      · obtain rfl := Except.ok.inj attacks
        cases first
      · obtain ⟨formula, _, rfl⟩ := map_eq_ok_iff.mp attacks
        obtain rfl := List.mem_singleton.mp first
        exact ⟨.attack, rfl⟩
  · unfold damageOption at later
    split at later
    · cases later
    · simp only at later
      split at later
      · cases later
      · split at later
        · obtain rfl := List.mem_singleton.mp later
          exact ⟨.healing, rfl⟩
        · split at later
          · obtain rfl := List.mem_singleton.mp later
            exact ⟨.temporary, rfl⟩
          · obtain rfl := List.mem_singleton.mp later
            exact ⟨.damage, rfl⟩

private theorem optionRoll_congr {own o : ActionOption} (same : own.face = o.face) :
    action.optionRoll config c own = action.optionRoll config c o := by
  unfold ActionOption.face at same
  simp only [Prod.mk.injEq] at same
  obtain ⟨kind, label, formula, _⟩ := same
  simp only [optionRoll, kind, label, formula]

private theorem mapM_optionRoll_congr {own options : List ActionOption}
    (same : own.map ActionOption.face = options.map ActionOption.face) :
    own.mapM (action.optionRoll config c) = options.mapM (action.optionRoll config c) := by
  induction options generalizing own with
  | nil =>
    obtain rfl := List.map_eq_nil_iff.mp same
    rfl
  | cons o options ih =>
    obtain ⟨first, others, rfl, face, faces⟩ := List.map_eq_cons_iff.mp same
    rw [List.mapM_cons, List.mapM_cons, optionRoll_congr face, ih faces]

theorem rolls_useUnder (features : FindsFeatures find) (action : Action) (config : Config) (c : Option Character) :
    (action.useUnder find config c).map ActionResolution.rolls = (do
      let plain ← action.plainOptions.mapError .attackBonus
      let _ ← config.mapError .configuration
      let rolls ← (plain.mapM (action.optionRoll config c)).mapError .configuration
      .ok rolls.flatten) := by
  unfold useUnder optionsUnder
  cases action.plainOptions with
  | error fault => rfl
  | ok plain =>
    cases config with
    | error fault => rfl
    | ok settings =>
      have faces := (Rule.annotates_apply_of_feature (features.not_spell settings) plain).faces
      have same : _ = plain.mapM (action.optionRoll (.ok settings) c) := mapM_optionRoll_congr faces
      simp only [Except.mapError, Except.bind, bind, same]
      cases plain.mapM (action.optionRoll (.ok settings) c) <;> rfl

private theorem exists_plainOptions_of_optionsUnder (options : action.optionsUnder find config = .ok application) :
    ∃ plain settings, action.plainOptions = .ok plain ∧ application = Rule.apply (find settings) plain := by
  obtain ⟨plain, built, options⟩ := bind_eq_ok_iff.mp options
  obtain ⟨settings, _, options⟩ := bind_eq_ok_iff.mp options
  exact ⟨plain, settings, mapError_eq_ok_iff.mp built, (Except.ok.inj options).symm⟩

/-- Under a rule for features, too, every option is for a roll. -/
theorem rollKind?_optionsUnder (features : FindsFeatures find)
    (options : action.optionsUnder find config = .ok application) :
    ∀ o ∈ application.options, ∃ kind, o.kind.rollKind? = some kind := by
  obtain ⟨plain, settings, built, rfl⟩ := exists_plainOptions_of_optionsUnder options
  intro o member
  have faces := (Rule.annotates_apply_of_feature (features.not_spell settings) plain).faces
  obtain ⟨own, listed, face⟩ := List.mem_map.mp (faces ▸ List.mem_map_of_mem member)
  obtain ⟨kind, rolls⟩ := rollKind?_plainOptions built own listed
  have same : own.kind = o.kind := congrArg Prod.fst face
  exact ⟨kind, same ▸ rolls⟩

private theorem kinds_optionRoll {o : ActionOption} {kind : RollKind} (kinded : o.kind.rollKind? = some kind)
    {rolls : List RollRequest} (made : action.optionRoll config c o = .ok rolls) :
    rolls.map (fun r => r.kind.name) = if o.hasFormula then [o.kind.name] else [] := by
  unfold optionRoll at made
  unfold ActionOption.hasFormula
  cases formula : Rule.nonempty o.formula with
  | none =>
    rw [formula] at made
    obtain rfl := Except.ok.inj made
    rfl
  | some text =>
    simp only [formula, kinded] at made
    obtain ⟨prepared, _, rfl⟩ := map_eq_ok_iff.mp made
    simp only [List.map_cons, List.map_nil, OptionKind.name_rollKind? kinded, Option.isSome_some, if_true]

private theorem kinds_of_forall₂ {options : List ActionOption} {rolls : List (List RollRequest)}
    (made : List.Forall₂ (fun o own => action.optionRoll config c o = .ok own) options rolls)
    (kinded : ∀ o ∈ options, ∃ kind, o.kind.rollKind? = some kind) :
    rolls.flatten.map (fun r => r.kind.name) =
      (options.filter ActionOption.hasFormula).map (fun o => o.kind.name) := by
  induction made with
  | nil => rfl
  | @cons o own options rolls first _ ih =>
    obtain ⟨⟨kind, here⟩, others⟩ := List.forall_mem_cons.mp kinded
    rw [List.flatten_cons, List.map_append, kinds_optionRoll here first, ih others]
    cases formula : o.hasFormula <;> simp [formula]

/-- An action makes one roll for each option with a formula, of the kind that has the name of the option's kind. -/
theorem kinds_useUnder (features : FindsFeatures find) {resolution : ActionResolution}
    (used : action.useUnder find config c = .ok resolution) :
    ∃ application, action.optionsUnder find config = .ok application ∧
      resolution.rolls.map (fun r => r.kind.name) =
        (application.options.filter ActionOption.hasFormula).map (fun o => o.kind.name) := by
  obtain ⟨application, options, used⟩ := bind_eq_ok_iff.mp used
  obtain ⟨rolls, made, used⟩ := bind_eq_ok_iff.mp used
  obtain rfl := Except.ok.inj used
  have each := forall₂_of_mapM (mapError_eq_ok_iff.mp made)
  exact ⟨application, options, kinds_of_forall₂ each (rollKind?_optionsUnder features options)⟩

end Options

/-- Whichever rules for features are found for an action: its options are all for rolls, one roll is made for each option
with a formula, and the rolls are the same. -/
structure RollsWhicheverRule (action : Action) (config : Config) (c : Option Character) : Prop where
  kinded : ∀ find, FindsFeatures find → ∀ application, action.optionsUnder find config = .ok application →
    ∀ o ∈ application.options, ∃ kind, RollKind.ofName? o.kind.name = some kind
  each : ∀ find, FindsFeatures find → ∀ resolution, action.useUnder find config c = .ok resolution →
    ∃ application, action.optionsUnder find config = .ok application ∧
      resolution.rolls.map (fun r => r.kind.name) =
        (application.options.filter ActionOption.hasFormula).map (fun o => o.kind.name)
  alike : ∀ find other, FindsFeatures find → FindsFeatures other →
    (action.useUnder find config c).map ActionResolution.rolls =
      (action.useUnder other config c).map ActionResolution.rolls

/-- Rules alter no rolls: of the options of a spell or an action they change nothing but notes, apart from the two spell
rules that clear options or put a button without a formula in front; and an action, which is used under the rule for
features that is found for it, makes the same rolls under any other. -/
theorem rules_alter_no_rolls :
    (∀ rule options, Rule.AltersNoRoll rule options (Rule.apply rule options)) ∧
      ∀ (action : Action) (config : Config) (c : Option Character),
        action.RollsWhicheverRule config c ∧ FindsFeatures (fun settings => action.rule? settings c) ∧
          action.options config c = action.optionsUnder (fun settings => action.rule? settings c) config ∧
          action.use config c = action.useUnder (fun settings => action.rule? settings c) config c := by
  refine ⟨Rule.altersNoRoll_apply, fun action config c => ⟨⟨?_, ?_, ?_⟩, ?_⟩⟩
  · intro find features application options o member
    obtain ⟨kind, rolls⟩ := rollKind?_optionsUnder features options o member
    exact ⟨kind, o.kind.rollKind?_eq ▸ rolls⟩
  · exact fun find features resolution used => kinds_useUnder features used
  · intro find other features others
    rw [rolls_useUnder features, rolls_useUnder others]
  · exact ⟨findsFeatures_rule? action c, rfl, use_eq_useUnder action config c⟩

end Action

end HeroSheet
