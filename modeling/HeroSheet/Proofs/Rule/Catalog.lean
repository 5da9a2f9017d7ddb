import HeroSheet.Proofs.Outcome
import HeroSheet.Proofs.Record.Accepted
import HeroSheet.Rule.Catalog
import Mathlib.Data.List.Induction

namespace HeroSheet

/-- The key of the variant of a normal form for an edition. -/
def variantKey (key : List Char) (e : Edition) : String := ruleKey (String.ofList key ++ " (" ++ e.name ++ ")")

theorem ruleKey_eq_empty_iff {name : String} : ruleKey name = "" ↔ normalizeRuleName name.toList = [] := by
  rw [ruleKey, ← String.toList_eq_nil_iff, String.toList_ofList]

/-- The key under which a rule is kept. -/
def Rule.key (rule : Rule) : String := ruleKey rule.name

namespace RuleCatalog

variable {category : RuleCategory} {key : String}

/-- A catalog that was made of tables of rules. -/
def Built (catalog : RuleCatalog) : Prop := ∃ tables, catalog = ofRules tables

/-- The rules of a category, none when the tables leave it out. -/
def rulesOf (tables : List (RuleCategory × List Rule)) (category : RuleCategory) : List Rule :=
  (Entries.get? tables category).getD []

section Indexed

variable {rules : List Rule}

theorem indexed_append (rules : List Rule) (rule : Rule) :
    indexed (rules ++ [rule]) = Entries.put (indexed rules) rule.key rule := by
  rw [indexed, List.foldl_concat]
  rfl

/-- The rule under a key is the last one whose name has it as its normal form. -/
theorem get?_indexed (rules : List Rule) (key : String) :
    Entries.get? (indexed rules) key = rules.reverse.find? fun rule => rule.key == key := by
  induction rules using List.reverseRecOn with
  | nil => rfl
  | append_singleton rules rule ih =>
    rw [indexed_append, Entries.get?_put, List.reverse_concat]
    by_cases last : rule.key = key
    · simp [last]
    · have other : (rule.key == key) = false := by simpa using last
      simp only [if_neg last, List.find?_cons, other, ih]

private theorem ruleKey_of_get?_indexed {rule : Rule} (found : Entries.get? (indexed rules) key = some rule) :
    rule.key = key := by
  rw [get?_indexed] at found
  simpa using List.find?_some found

private theorem mem_of_get?_indexed {rule : Rule} (found : Entries.get? (indexed rules) key = some rule) :
    rule ∈ rules := by
  rw [get?_indexed] at found
  exact List.mem_reverse.mp (List.mem_of_find?_eq_some found)

theorem mem_keys_indexed : key ∈ (indexed rules).map Prod.fst ↔ key ∈ rules.map Rule.key := by
  rw [← Entries.isSome_get?_iff, get?_indexed]
  simp

theorem nodup_keys_indexed (rules : List Rule) : ((indexed rules).map Prod.fst).Nodup := by
  induction rules using List.reverseRecOn with
  | nil => exact List.nodup_nil
  | append_singleton rules rule ih =>
    rw [indexed_append]
    exact Entries.nodup_keys_put ih _ _

end Indexed

theorem table_ofRules (tables : List (RuleCategory × List Rule)) (category : RuleCategory) :
    (ofRules tables).table category = indexed (rulesOf tables category) := by
  induction tables with
  | nil => rfl
  | cons own tables ih =>
    by_cases here : own.1 = category
    · simp [table, ofRules, rulesOf, Entries.get?, here]
    · simpa [table, ofRules, rulesOf, Entries.get?, here] using ih

/-- Under a key stands a rule whose name has it as its normal form. -/
theorem Built.ruleKey_name {catalog : RuleCatalog} (built : catalog.Built) {rule : Rule}
    (found : Entries.get? (catalog.table category) key = some rule) : rule.key = key := by
  obtain ⟨tables, rfl⟩ := built
  rw [table_ofRules] at found
  exact ruleKey_of_get?_indexed found

section Lookup

variable {catalog : RuleCatalog} {edition : Option Edition} {name : String} {normal : List Char}

/-- The rule of a table for the variant of a normal form. -/
def variant? (catalog : RuleCatalog) (category : RuleCategory) (key : List Char) (edition : Option Edition) :
    Option Rule :=
  edition.bind fun e => Entries.get? (catalog.table category) (variantKey key e)

theorem lookup_of_key (form : normalizeRuleName name.toList = normal) (named : normal ≠ []) :
    catalog.lookup name (some category) edition = catalog.lookupIn category normal edition := by
  subst form
  rw [lookup, if_neg (by simpa using named)]
  simp [searched]

/-- No rule is given for a name without letters, digits and colons. -/
theorem lookup_of_ruleKey_eq_empty (catalog : RuleCatalog) (categories : Option RuleCategory)
    (edition : Option Edition) (empty : ruleKey name = "") : catalog.lookup name categories edition = none := by
  have form : normalizeRuleName name.toList = [] := ruleKey_eq_empty_iff.mp empty
  rw [lookup, if_pos (by simp [form])]

/-- The variant for the edition is tried first, then the name, then what stands before its colon. -/
theorem lookupIn_eq (catalog : RuleCatalog) (category : RuleCategory) (key : List Char) (edition : Option Edition) :
    catalog.lookupIn category key edition =
      ((catalog.variant? category key edition).or (Entries.get? (catalog.table category) (String.ofList key))).or
        (if key.contains ':' then
          Entries.get? (catalog.table category) (String.ofList (Text.trim (key.takeWhile (· != ':'))))
        else none) := by
  have first : ∀ (k : String) (ks : List String),
      ((k :: ks).findSome? fun k => Entries.get? (catalog.table category) k) =
        (Entries.get? (catalog.table category) k).or (ks.findSome? fun k => Entries.get? (catalog.table category) k) := by
    intro k ks
    rw [List.findSome?_cons]
    cases Entries.get? (catalog.table category) k <;> rfl
  unfold lookupIn candidates variant? variantKey
  cases edition <;> split <;> simp [first, Option.or_assoc]

end Lookup

section Filed

variable {catalog : RuleCatalog} {edition : Option Edition} {name : String} {rule : Rule}

/-- The rules of each table are of its category. -/
def Filed (catalog : RuleCatalog) : Prop :=
  ∀ category key rule, Entries.get? (catalog.table category) key = some rule → rule.category = category

theorem filed_bundled : bundled.Filed := by
  intro category key rule found
  rw [bundled, table_ofRules] at found
  have listed : ∀ own ∈ rulesOf [ (.spell, Rule.spells), (.classFeature, Rule.classFeatures),
      (.racial, Rule.racialFeatures), (.combatManeuver, Rule.maneuvers) ] category, own.category = category := by
    cases category <;> decide
  exact listed rule (mem_of_get?_indexed found)

theorem Filed.lookup (filed : catalog.Filed) {category : RuleCategory}
    (found : catalog.lookup name (some category) edition = some rule) : rule.category = category := by
  simp only [RuleCatalog.lookup] at found
  split at found
  · cases found
  · obtain ⟨own, searched, within⟩ := List.exists_of_findSome?_eq_some found
    obtain rfl := List.mem_singleton.mp searched
    obtain ⟨candidate, _, entry⟩ := List.exists_of_findSome?_eq_some within
    exact filed own candidate rule entry

theorem Filed.lookupFirst (filed : catalog.Filed) {categories : List RuleCategory}
    (found : catalog.lookupFirst name categories edition = some rule) : rule.category ∈ categories := by
  obtain ⟨category, member, within⟩ := List.exists_of_findSome?_eq_some found
  exact filed.lookup within ▸ member

end Filed

end RuleCatalog

end HeroSheet
