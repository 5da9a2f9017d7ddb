import HeroSheet.Proofs.Rule.Qualified

/-!
Normal forms are canonical: a normal form is its own, it gives the rules that the name gives, and an edition behind it
leads to the entry of the name with that edition. For the last, what stands before a blank may be put in its normal form
and then normalized with what follows.
-/

namespace HeroSheet

variable {b : Char} {before after cs rest : List Char}

section Blanks

theorem collapseBlanks_of_blank (blank : isBlank b) (follows : rest.head?.any isBlank) :
    collapseBlanks (b :: rest) = collapseBlanks rest := by
  rw [collapseBlanks, if_pos blank, if_pos follows]

theorem collapseBlanks_of_solid (solid : ¬ isBlank b) : collapseBlanks (b :: rest) = b :: collapseBlanks rest := by
  rw [collapseBlanks, if_neg solid]

theorem collapseBlanks_of_alone (blank : isBlank b) (alone : ¬ rest.head?.any isBlank) :
    collapseBlanks (b :: rest) = ' ' :: collapseBlanks rest := by
  rw [collapseBlanks, if_pos blank, if_neg alone]

private theorem collapseBlanks_append_left (before after : List Char) :
    collapseBlanks (collapseBlanks before ++ after) = collapseBlanks (before ++ after) := by
  induction before with
  | nil => rfl
  | cons c cs ih =>
    by_cases blank : isBlank c
    · by_cases follows : cs.head?.any isBlank
      · have later : (cs ++ after).head?.any isBlank := by
          cases cs with
          | nil => cases follows
          | cons d cs => exact follows
        rw [collapseBlanks_of_blank blank follows, List.cons_append, collapseBlanks_of_blank blank later, ih]
      · have solid : ∀ d ∈ cs.head?, isBlank d = false := fun d first => by
          simpa [Option.mem_def.mp first] using follows
        have starts : (collapseBlanks cs ++ after).head? = (cs ++ after).head? := by
          rw [List.head?_append, List.head?_append, head?_collapseBlanks solid]
        have space : isBlank ' ' = true := by decide
        rw [collapseBlanks_of_alone blank follows, List.cons_append, List.cons_append, collapseBlanks, collapseBlanks,
          starts, ih, if_pos blank, if_pos space]
    · rw [collapseBlanks_of_solid blank, List.cons_append, List.cons_append, collapseBlanks_of_solid blank,
        collapseBlanks_of_solid blank, ih]

private theorem collapseBlanks_drop (before : List Char) (blank : isBlank b) (follows : rest.head?.any isBlank) :
    collapseBlanks (before ++ b :: rest) = collapseBlanks (before ++ rest) := by
  induction before with
  | nil => exact collapseBlanks_of_blank blank follows
  | cons c cs ih =>
    have starts : (cs ++ b :: rest).head?.any isBlank = (cs ++ rest).head?.any isBlank := by
      cases cs with
      | nil => exact blank.trans follows.symm
      | cons d cs => rfl
    rw [List.cons_append, List.cons_append, collapseBlanks, collapseBlanks, starts, ih]

private theorem collapseBlanks_dropAll (before : List Char) {blanks : List Char} (all : ∀ c ∈ blanks, isBlank c)
    (follows : rest.head?.any isBlank) : collapseBlanks (before ++ blanks ++ rest) = collapseBlanks (before ++ rest) := by
  induction blanks with
  | nil => rw [List.append_nil]
  | cons b blanks ih =>
    obtain ⟨blank, all⟩ := List.forall_mem_cons.mp all
    have later : (blanks ++ rest).head?.any isBlank := by
      cases blanks with
      | nil => exact follows
      | cons d blanks => exact (List.forall_mem_cons.mp all).1
    rw [List.append_assoc, List.cons_append, collapseBlanks_drop before blank later, ← List.append_assoc, ih all]

private theorem trim_collapseBlanks_append (cs : List Char) {blanks : List Char} (all : ∀ c ∈ blanks, isBlank c) :
    Text.trim (collapseBlanks (blanks ++ cs)) = Text.trim (collapseBlanks cs) := by
  induction blanks with
  | nil => rfl
  | cons b blanks ih =>
    obtain ⟨blank, all⟩ := List.forall_mem_cons.mp all
    rw [← ih all, List.cons_append]
    by_cases follows : (blanks ++ cs).head?.any isBlank
    · rw [collapseBlanks_of_blank blank follows]
    · have space : ∀ c ∈ [' '], isBlank c := List.forall_mem_singleton.mpr (by decide)
      rw [collapseBlanks_of_alone blank follows]
      exact Text.strip_append_left space

private theorem trim_collapseBlanks_trim (cs : List Char) (follows : rest.head?.any isBlank) :
    Text.trim (collapseBlanks (Text.trim cs ++ rest)) = Text.trim (collapseBlanks (cs ++ rest)) := by
  obtain ⟨front, back, split, frontBlank, backBlank⟩ := Text.exists_strip isBlank cs
  have whole : cs ++ rest = front ++ (Text.trim cs ++ back ++ rest) := by
    conv_lhs => rw [split]
    simp only [Text.trim, List.append_assoc]
  rw [whole, trim_collapseBlanks_append _ frontBlank, collapseBlanks_dropAll _ backBlank follows]

end Blanks

private theorem trim_collapseBlanks_normalizeRuleName (cs : List Char) (follows : rest.head?.any isBlank) :
    Text.trim (collapseBlanks (normalizeRuleName cs ++ rest)) =
      Text.trim (collapseBlanks (keptOfName cs ++ rest)) := by
  rw [normalizeRuleName_eq, trim_collapseBlanks_trim _ follows, collapseBlanks_append_left]

/-- The edition behind a normal form leads to the key of the name with the edition. -/
theorem variantKey_normalizeRuleName (name : String) (e : Edition) :
    variantKey (normalizeRuleName name.toList) e = ruleKey (editionName name e) := by
  change String.ofList (normalizeRuleName (editionName (String.ofList (normalizeRuleName name.toList)) e).toList) = _
  have key := isRuleKey_normalizeRuleName name.toList
  have follows : (' ' :: e.name.toList).head?.any isBlank := show isBlank ' ' by decide
  rw [normalizeRuleName_eq, keptOfName_editionName, String.toList_ofList, key.keptOfName_eq_self,
    trim_collapseBlanks_normalizeRuleName _ follows, ruleKey, normalizeRuleName_eq, keptOfName_editionName]

private theorem ruleKey_ruleKey (name : String) : ruleKey (ruleKey name) = ruleKey name := by
  rw [ruleKey, ruleKey, String.toList_ofList, (isRuleKey_normalizeRuleName name.toList).normalizeRuleName_eq_self]

namespace RuleCatalog

private theorem lookup_congr {name other : String} (catalog : RuleCatalog) (category : Option RuleCategory)
    (edition : Option Edition) (same : ruleKey name = ruleKey other) :
    catalog.lookup name category edition = catalog.lookup other category edition := by
  have normal : normalizeRuleName name.toList = normalizeRuleName other.toList := String.ofList_injective same
  rw [lookup, lookup, normal]

/-- The rule under the name with an edition behind it. -/
def entryFor (rule : Rule) (name : String) (e : Edition) : Rule := { rule with name := editionName name e }

private theorem head?_candidates (name : String) (e : Edition) :
    (candidates (normalizeRuleName name.toList) (some e)).head? = some (ruleKey (editionName name e)) :=
  congrArg some (variantKey_normalizeRuleName name e)

/-- The normal form of a name is its own normal form, of small letters, digits and colons with single spaces between
them; it gives the rules that the name gives, and the key that is tried first for an edition is the one under which the
name with the edition is indexed. -/
theorem ruleKey_canonical (name : String) :
    ruleKey (ruleKey name) = ruleKey name ∧ IsRuleKey (ruleKey name).toList ∧
      (∀ (catalog : RuleCatalog) category edition,
        catalog.lookup (ruleKey name) category edition = catalog.lookup name category edition) ∧
      ∀ e, (candidates (normalizeRuleName name.toList) (some e)).head? = some (ruleKey (editionName name e)) ∧
        ∀ table rule, Entries.get? (insert table (entryFor rule name e)) (ruleKey (editionName name e)) =
          some (entryFor rule name e) := by
  have own := ruleKey_ruleKey name
  refine ⟨own, ?_, fun catalog category edition => lookup_congr catalog category edition own, fun e =>
    ⟨head?_candidates name e, fun table rule => ?_⟩⟩
  · rw [ruleKey, String.toList_ofList]
    exact isRuleKey_normalizeRuleName name.toList
  · rw [insert, Entries.get?_put]
    exact if_pos rfl

end RuleCatalog

end HeroSheet
