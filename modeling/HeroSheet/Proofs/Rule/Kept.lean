import HeroSheet.Proofs.Rule.Catalog
import Mathlib.Algebra.Order.BigOperators.Group.List
import Mathlib.Algebra.Order.Ring.Nat
import Mathlib.Data.List.Dedup

namespace HeroSheet

variable {category : RuleCategory} {name : String} {rule : Rule}

theorem Rule.name_of_read {fields : List (String × Data)} (accepted : Rule.read category name fields = .valid rule) :
    rule.name = name := by
  unfold Rule.read at accepted
  split at accepted
  · cases accepted
  · split at accepted
    · cases accepted
    · have built := Record.record_fields_eq_valid accepted
      simp only [Record.seq_eq_valid, Record.fmap_eq_valid] at built
      obtain ⟨_, _, ⟨_, _, ⟨_, _, ⟨_, _, ⟨_, _, ⟨own, named, rfl⟩, _, rfl⟩, _, rfl⟩, _, rfl⟩, _, rfl⟩, _, rfl⟩ := built
      have field : ∀ fields : List (String × Data), Entries.get? (Entries.put (Entries.put fields "name" (.text name))
          "category" (.text category.name)) "name" = some (.text name) := by
        intro fields
        rw [Entries.get?_put, if_neg (by decide), Entries.get?_put, if_pos rfl]
      rw [Record.required, field] at named
      obtain ⟨text, _⟩ := Record.nonemptyText_eq_valid.mp (Record.Checked.under_eq_valid.mp named)
      exact (Data.text.inj text).symm
  · cases accepted

namespace RuleCatalog

variable {rules : List Rule}

/-- The normal forms of the names in a table. -/
def keys (records : RuleRecords) : List String := records.map fun record => ruleKey record.1

/-- Records and the rules that were read from them, one by one. -/
def Reads (category : RuleCategory) : RuleRecords → List Rule → Prop :=
  List.Forall₂ fun record rule => Rule.read category record.1 record.2 = .valid rule

private theorem reads_of_readTable {records : RuleRecords} (built : readTable category records = .ok rules) :
    Reads category records rules := by
  refine (forall₂_of_mapM built).imp fun record rule read => ?_
  cases accepted : Rule.read category record.1 record.2 with
  | valid own =>
    simp only [accepted] at read
    rw [Except.ok.inj read]
  | refused issues => simp [accepted] at read
  | stopped reason => simp [accepted] at read

/-- A catalog of recorded tables is that of the rules which the records describe. -/
theorem exists_of_ofRecords {tables : List (RuleCategory × RuleRecords)} {catalog : RuleCatalog}
    (built : ofRecords tables = .ok catalog) :
    ∃ read, List.Forall₂ (fun t own => t.1 = own.1 ∧ Reads t.1 t.2 own.2) tables read ∧ catalog = ofRules read := by
  obtain ⟨read, all, made⟩ := bind_eq_ok_iff.mp built
  refine ⟨read, (forall₂_of_mapM all).imp fun t own one => ?_, (Except.ok.inj made).symm⟩
  obtain ⟨rules, table, rfl⟩ := map_eq_ok_iff.mp one
  exact ⟨rfl, reads_of_readTable table⟩

private theorem Reads.keys_eq {records : RuleRecords} (reads : Reads category records rules) :
    keys records = rules.map Rule.key :=
  map_eq_map_of_forall₂ (reads.imp fun _ _ read => by rw [Rule.key, Rule.name_of_read read])

private theorem get?_indexed_of_mem (distinct : (rules.map Rule.key).Nodup) (member : rule ∈ rules) :
    Entries.get? (indexed rules) rule.key = some rule := by
  rw [get?_indexed]
  have here : (rules.reverse.find? fun own => own.key == rule.key).isSome :=
    List.find?_isSome.mpr ⟨rule, List.mem_reverse.mpr member, beq_self_eq_true _⟩
  obtain ⟨own, found⟩ := Option.isSome_iff_exists.mp here
  have same : own.key = rule.key := by simpa using List.find?_some found
  have there : own ∈ rules := List.mem_reverse.mp (List.mem_of_find?_eq_some found)
  rw [found, List.inj_on_of_nodup_map distinct there member same]

theorem length_indexed (rules : List Rule) :
    (indexed rules).length = (rules.map Rule.key).dedup.length := by
  have keys : ((indexed rules).map Prod.fst).Perm (rules.map Rule.key).dedup := by
    refine (List.perm_ext_iff_of_nodup (nodup_keys_indexed rules) (List.nodup_dedup _)).mpr fun key => ?_
    rw [mem_keys_indexed, List.mem_dedup]
  rw [← keys.length_eq, List.length_map]

private theorem length_indexed_le (rules : List Rule) : (indexed rules).length ≤ rules.length := by
  rw [length_indexed]
  exact (List.dedup_sublist _).length_le.trans_eq (List.length_map _)

private theorem nodup_of_length_indexed (all : (indexed rules).length = rules.length) :
    (rules.map Rule.key).Nodup := by
  rw [length_indexed] at all
  exact List.dedup_eq_self.mp ((List.dedup_sublist _).eq_of_length (all.trans (List.length_map _).symm))

theorem size_ofRules (tables : List (RuleCategory × List Rule)) :
    (ofRules tables).size = (tables.map fun t => (indexed t.2).length).sum := by
  rw [size, ofRules, List.length_flatMap, List.map_map]
  rfl

private theorem table_of_mem {tables : List (RuleCategory × List Rule)} (distinct : (tables.map Prod.fst).Nodup)
    (member : (category, rules) ∈ tables) : (ofRules tables).table category = indexed rules := by
  rw [table_ofRules, rulesOf, Entries.get?_of_mem distinct member, Option.getD_some]

private theorem lookup_of_mem {tables : List (RuleCategory × List Rule)} (distinct : (tables.map Prod.fst).Nodup)
    (table : (category, rules) ∈ tables) (apart : (rules.map Rule.key).Nodup)
    (member : rule ∈ rules) (named : rule.key ≠ "") :
    (ofRules tables).lookup rule.name (some category) none = some rule := by
  have normal : normalizeRuleName rule.name.toList ≠ [] := fun empty => named (ruleKey_eq_empty_iff.mpr empty)
  have entry : Entries.get? ((ofRules tables).table category) rule.key = some rule := by
    rw [table_of_mem distinct table, get?_indexed_of_mem apart member]
  rw [lookup_of_key rfl normal, lookupIn_eq]
  unfold Rule.key ruleKey at entry
  rw [entry]
  rfl

/-- Every rule of the tables is the one that its name gives, and all of them are counted. -/
structure KeepsRules (tables : List (RuleCategory × List Rule)) : Prop where
  found : ∀ own ∈ tables, ∀ rule ∈ own.2, (ofRules tables).lookup rule.name (some own.1) none = some rule
  counted : (ofRules tables).size = (tables.map fun own => own.2.length).sum

private theorem keepsRules_iff {tables : List (RuleCategory × List Rule)} (distinct : (tables.map Prod.fst).Nodup) :
    KeepsRules tables ↔ ∀ own ∈ tables, (own.2.map Rule.key).Nodup ∧
      "" ∉ own.2.map Rule.key := by
  constructor
  · intro keeps own member
    constructor
    · have counted := keeps.counted
      rw [size_ofRules] at counted
      have least : ∀ t ∈ tables, (indexed t.2).length ≤ t.2.length := fun t _ => length_indexed_le t.2
      refine nodup_of_length_indexed (eq_of_le_of_not_lt (least own member) fun fewer => ?_)
      exact (List.sum_lt_sum _ _ least ⟨own, member, fewer⟩).ne counted
    · intro empty
      obtain ⟨rule, listed, key⟩ := List.mem_map.mp empty
      have found := keeps.found own member rule listed
      rw [lookup_of_ruleKey_eq_empty _ _ _ key] at found
      cases found
  · intro apart
    constructor
    · intro own member rule listed
      obtain ⟨different, named⟩ := apart own member
      exact lookup_of_mem distinct member different listed fun empty =>
        named (List.mem_map.mpr ⟨rule, listed, empty⟩)
    · rw [size_ofRules]
      refine congrArg List.sum (List.map_congr_left fun own member => ?_)
      rw [length_indexed, (apart own member).1.dedup, List.length_map]

/-- The catalog gives every record back under its name, and counts all of them. -/
structure KeepsRecords (catalog : RuleCatalog) (tables : List (RuleCategory × RuleRecords)) : Prop where
  found : ∀ t ∈ tables, ∀ record ∈ t.2, ∃ rule, Rule.read t.1 record.1 record.2 = .valid rule ∧
    catalog.lookup record.1 (some t.1) none = some rule
  counted : catalog.size = (tables.map fun t => t.2.length).sum

/-- A catalog keeps all records exactly when the names of each table have different normal forms, and none of
them is empty. -/
theorem keepsRecords_iff {tables : List (RuleCategory × RuleRecords)} {catalog : RuleCatalog}
    (distinct : (tables.map Prod.fst).Nodup) (built : ofRecords tables = .ok catalog) :
    catalog.KeepsRecords tables ↔ ∀ t ∈ tables, (keys t.2).Nodup ∧ "" ∉ keys t.2 := by
  obtain ⟨read, each, rfl⟩ := exists_of_ofRecords built
  have categories : tables.map Prod.fst = read.map Prod.fst := map_eq_map_of_forall₂ (each.imp fun _ _ => And.left)
  have counts : (tables.map fun t => t.2.length) = read.map fun own => own.2.length :=
    map_eq_map_of_forall₂ (each.imp fun _ _ both => both.2.length_eq)
  have apart : (∀ own ∈ read, (own.2.map Rule.key).Nodup ∧
      "" ∉ own.2.map Rule.key) ↔ ∀ t ∈ tables, (keys t.2).Nodup ∧ "" ∉ keys t.2 :=
    forall_mem_iff_of_forall₂ (each.imp fun t own both => by rw [both.2.keys_eq])
  have found : (∀ own ∈ read, ∀ rule ∈ own.2, (ofRules read).lookup rule.name (some own.1) none = some rule) ↔
      ∀ t ∈ tables, ∀ record ∈ t.2, ∃ rule, Rule.read t.1 record.1 record.2 = .valid rule ∧
        (ofRules read).lookup record.1 (some t.1) none = some rule := by
    refine forall_mem_iff_of_forall₂ (each.imp fun t own both => ?_)
    obtain ⟨category, reads⟩ := both
    refine forall_mem_iff_of_forall₂ (reads.imp fun record rule accepted => ?_)
    rw [Rule.name_of_read accepted, ← category]
    constructor
    · intro given
      exact ⟨rule, accepted, given⟩
    · rintro ⟨other, same, given⟩
      obtain rfl := Record.Checked.valid.inj (accepted.symm.trans same)
      exact given
  rw [← apart, ← keepsRules_iff (categories ▸ distinct)]
  constructor
  · intro keeps
    exact ⟨found.mpr keeps.found, counts ▸ keeps.counted⟩
  · intro keeps
    exact ⟨found.mp keeps.found, counts ▸ keeps.counted⟩

/-- A table with two spellings of one name. -/
def markRecords : List (RuleCategory × RuleRecords) :=
  [(.spell, [("Hunter's Mark", [("type", .text "reusable")]), ("Hunters Mark", [("type", .text "too_complicated")])])]

/-- Two spellings of a name come to one key: the later record takes the place of the first. -/
theorem not_keepsRecords_marks :
    ∃ catalog, ofRecords markRecords = .ok catalog ∧
      (catalog.lookup "Hunter's Mark" (some .spell) none).map Rule.name = some "Hunters Mark" ∧
      ¬ catalog.KeepsRecords markRecords := by
  have built : ofRecords markRecords = .ok (ofRules [(.spell, [Rule.spell "Hunter's Mark" .reusable "",
    Rule.spell "Hunters Mark" .tooComplicated ""])]) := rfl
  refine ⟨_, built, by decide +kernel, fun keeps => ?_⟩
  have counted := keeps.counted
  revert counted
  decide +kernel

/-- Two spells of different names. -/
def shieldRecords : List (RuleCategory × RuleRecords) :=
  [(.spell, [("Hunter's Mark", [("type", .text "reusable")]), ("Shield", [("type", .text "reusable")])])]

theorem keepsRecords_shield :
    ∃ catalog, (shieldRecords.map Prod.fst).Nodup ∧ ofRecords shieldRecords = .ok catalog ∧
      catalog.KeepsRecords shieldRecords := by
  have distinct : (shieldRecords.map Prod.fst).Nodup := by decide
  have built : ofRecords shieldRecords = .ok (ofRules [(.spell, [Rule.spell "Hunter's Mark" .reusable "",
    Rule.spell "Shield" .reusable ""])]) := rfl
  exact ⟨_, distinct, built, (keepsRecords_iff distinct built).mpr (by decide +kernel)⟩

end RuleCatalog

end HeroSheet
