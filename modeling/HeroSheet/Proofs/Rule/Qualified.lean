import HeroSheet.Proofs.Rule.Catalog
import HeroSheet.Proofs.Rule.Name

/-!
Names that say another name before a colon. A name without an entry of its own falls back to the entry of
what stands before its colon, but not to the variant of that entry for an edition: the fallback gives what
the base gives exactly where the base has no variant.
-/

namespace HeroSheet

private theorem isKeyChar_of_mem_editionName {e : Edition} {c : Char} (member : c ∈ e.name.toList) : isKeyChar c := by
  cases e <;> exact List.all_eq_true.mp (by decide) c member

/-- A name with an edition in parentheses behind it. -/
def editionName (name : String) (e : Edition) : String := name ++ " (" ++ e.name ++ ")"

/-- The edition is kept without its parentheses. -/
theorem keptOfName_editionName (name : String) (e : Edition) :
    keptOfName (editionName name e).toList = keptOfName name.toList ++ ' ' :: e.name.toList := by
  have text : (editionName name e).toList = name.toList ++ ' ' :: '(' :: (e.name.toList ++ [')']) := by
    simp [editionName]
  have word : keptOfName (' ' :: '(' :: (e.name.toList ++ [')'])) = ' ' :: e.name.toList := by
    cases e <;> decide +kernel
  rw [text, keptOfName_append, word]

/-- The variant for an edition stands under the normal form with the edition as its last word. -/
theorem variantKey_eq {cs : List Char} (key : IsRuleKey cs) (named : cs ≠ []) (e : Edition) :
    variantKey cs e = String.ofList (cs ++ ' ' :: e.name.toList) := by
  have there : e.name.toList ≠ [] := by cases e <;> decide
  have variant := key.append_word named (fun c => isKeyChar_of_mem_editionName (e := e)) there
  change String.ofList (normalizeRuleName (editionName (String.ofList cs) e).toList) = _
  rw [normalizeRuleName_eq, keptOfName_editionName, String.toList_ofList, key.keptOfName_eq_self,
    variant.trim_collapseBlanks]

/-- The name has a colon in its normal form, and this base before the first one. -/
structure Qualified (name base : String) : Prop where
  colon : ∃ front rest, normalizeRuleName name.toList = front ++ ':' :: rest ∧ ':' ∉ front ∧
    base = String.ofList (Text.trim front)
  named : base ≠ ""

namespace Qualified

variable {name base : String}

theorem isRuleKey (qualified : Qualified name base) : IsRuleKey base.toList := by
  obtain ⟨front, rest, normal, _, rfl⟩ := qualified.colon
  have whole := isRuleKey_normalizeRuleName name.toList
  rw [normal] at whole
  rw [String.toList_ofList]
  exact whole.trim_prefix

theorem toList_ne_nil (qualified : Qualified name base) : base.toList ≠ [] :=
  fun empty => qualified.named (String.toList_eq_nil_iff.mp empty)

private theorem not_mem_colon (qualified : Qualified name base) : ':' ∉ base.toList := by
  obtain ⟨front, rest, _, plain, rfl⟩ := qualified.colon
  rw [String.toList_ofList]
  exact fun member => plain ((Text.strip_isInfix front).mem member)

end Qualified

namespace RuleCatalog

variable {catalog : RuleCatalog} {category : RuleCategory} {edition : Option Edition} {name base : String}

/-- The table has no rule under the name, and none under its variant for the edition. -/
structure Lacks (catalog : RuleCatalog) (category : RuleCategory) (edition : Option Edition) (name : String) :
    Prop where
  common : Entries.get? (catalog.table category) (ruleKey name) = none
  variant : catalog.variant? category (normalizeRuleName name.toList) edition = none

/-- The name gives the rule that its base gives. -/
def InheritsBase (catalog : RuleCatalog) (category : RuleCategory) (edition : Option Edition)
    (name base : String) : Prop :=
  catalog.lookup name (some category) edition = catalog.lookup base (some category) edition

private theorem takeWhile_qualified {front rest : List Char} (plain : ':' ∉ front) :
    (front ++ ':' :: rest).takeWhile (· != ':') = front := by
  rw [List.takeWhile_append_of_pos, List.takeWhile_cons_of_neg, List.append_nil]
  · simp
  · intro c member
    simpa using ne_of_mem_of_not_mem member plain

private theorem lookup_of_lacks (qualified : Qualified name base) (lacks : catalog.Lacks category edition name) :
    catalog.lookup name (some category) edition = Entries.get? (catalog.table category) base := by
  obtain ⟨front, rest, normal, plain, rfl⟩ := qualified.colon
  have named : front ++ ':' :: rest ≠ [] := by simp
  have common : Entries.get? (catalog.table category) (String.ofList (front ++ ':' :: rest)) = none :=
    normal ▸ lacks.common
  have variant : catalog.variant? category (front ++ ':' :: rest) edition = none := normal ▸ lacks.variant
  rw [lookup_of_key normal named, lookupIn_eq, variant, common, if_pos (by simp), takeWhile_qualified plain]
  rfl

/-- The base itself gives its variant for the edition, and its common entry only without one. -/
theorem lookup_base (qualified : Qualified name base) :
    catalog.lookup base (some category) edition =
      (catalog.variant? category base.toList edition).or (Entries.get? (catalog.table category) base) := by
  have normal := qualified.isRuleKey.normalizeRuleName_eq_self
  rw [lookup_of_key normal qualified.toList_ne_nil, lookupIn_eq,
    if_neg (by simpa using qualified.not_mem_colon), Option.or_none, String.ofList_toList]

/-- Under the variant of the base stands no rule that stands under the base. -/
theorem variant?_ne_base (built : catalog.Built) (qualified : Qualified name base) {rule : Rule}
    (found : catalog.variant? category base.toList edition = some rule) :
    Entries.get? (catalog.table category) base ≠ some rule := by
  intro same
  obtain ⟨e, _, entry⟩ := Option.bind_eq_some_iff.mp found
  rw [variantKey_eq qualified.isRuleKey qualified.toList_ne_nil] at entry
  have keys : base = String.ofList (base.toList ++ ' ' :: e.name.toList) :=
    (built.ruleKey_name same).symm.trans (built.ruleKey_name entry)
  have lengths := congrArg (fun key => key.toList.length) keys
  simp at lengths

/-- A qualified name without an entry of its own gives what its base gives exactly when the base has no
variant for the edition. -/
theorem inheritsBase_iff (built : catalog.Built) (qualified : Qualified name base)
    (lacks : catalog.Lacks category edition name) :
    catalog.InheritsBase category edition name base ↔ catalog.variant? category base.toList edition = none := by
  rw [InheritsBase, lookup_of_lacks qualified lacks, lookup_base qualified]
  constructor
  · intro same
    cases variant : catalog.variant? category base.toList edition with
    | none => rfl
    | some rule =>
      rw [variant, Option.some_or] at same
      exact absurd same (variant?_ne_base built qualified variant)
  · intro none
    rw [none, Option.none_or]

/-- A spell as both editions have it. -/
def weaponRules : List Rule :=
  [ (Rule.spell "spiritual weapon" .reusable "").forEdition .of2014,
    (Rule.spell "spiritual weapon (2024)" .reusable "").forEdition .of2024 ]

/-- The attack of a spiritual weapon is played by the rule of 2014, although the weapon has one for the
edition that is played. -/
theorem not_inheritsBase_spiritualWeapon :
    Qualified "Spiritual Weapon: Attack" "spiritual weapon" ∧
      (ofRules [(.spell, weaponRules)]).Lacks .spell (some .of2024) "Spiritual Weapon: Attack" ∧
      ¬ (ofRules [(.spell, weaponRules)]).InheritsBase .spell (some .of2024) "Spiritual Weapon: Attack"
        "spiritual weapon" := by
  refine ⟨⟨⟨"spiritual weapon".toList, " attack".toList, by decide +kernel, by decide, by decide⟩, by decide⟩,
    ⟨by decide +kernel, by decide +kernel⟩, ?_⟩
  unfold InheritsBase
  decide +kernel

/-- For the edition of the common rule the attack is played as the weapon is. -/
theorem inheritsBase_spiritualWeapon :
    (ofRules [(.spell, weaponRules)]).Built ∧ Qualified "Spiritual Weapon: Attack" "spiritual weapon" ∧
      (ofRules [(.spell, weaponRules)]).Lacks .spell (some .of2014) "Spiritual Weapon: Attack" ∧
      (ofRules [(.spell, weaponRules)]).InheritsBase .spell (some .of2014) "Spiritual Weapon: Attack"
        "spiritual weapon" := by
  have built : (ofRules [(.spell, weaponRules)]).Built := ⟨_, rfl⟩
  have qualified : Qualified "Spiritual Weapon: Attack" "spiritual weapon" :=
    ⟨⟨"spiritual weapon".toList, " attack".toList, by decide +kernel, by decide, by decide⟩, by decide⟩
  have lacks : (ofRules [(.spell, weaponRules)]).Lacks .spell (some .of2014) "Spiritual Weapon: Attack" :=
    ⟨by decide +kernel, by decide +kernel⟩
  exact ⟨built, qualified, lacks, (inheritsBase_iff built qualified lacks).mpr (by decide +kernel)⟩

end RuleCatalog

end HeroSheet
