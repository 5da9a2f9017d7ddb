import HeroSheet.Proofs.Cast.CastLevel
import HeroSheet.Proofs.Text.Blank
import HeroSheet.Proofs.Text.LowerCase

namespace HeroSheet

/-- The attack roll of the spell is neither empty nor marked as none. -/
def Spell.Attacks (spell : Spell) : Prop := ∃ formula ∈ spell.attackRoll, formula ≠ "" ∧ formula ≠ noAttackMark

instance (spell : Spell) : Decidable spell.Attacks := inferInstanceAs (Decidable (∃ formula ∈ spell.attackRoll, _))

/-- The kind of roll that a component asks for. -/
def DamageRoll.kind (component : DamageRoll) : RollKind := if component.isHealing then .healing else .damage

/-- Label, kind and damage type of a roll. -/
def RollRequest.heading (roll : RollRequest) : String × RollKind × Option String :=
  (roll.label, roll.kind, roll.damageType)

namespace Spell

/-- The heading of the roll for a component. -/
def damageHeading (spell : Spell) (component : DamageRoll) : String × RollKind × Option String :=
  let damageType := if component.damageType.isEmpty then "damage" else component.damageType
  let heals := lowered damageType == "healing"
  (spell.name ++ " - " ++ (if heals then "Healing" else damageType), if heals then .healing else .damage,
    some damageType)

private theorem map_attackFormulas {α : Type} (spell : Spell) (a : α) :
    (spell.attackFormulas.map fun _ => a) = if spell.Attacks then [a] else [] := by
  cases declared : spell.attackRoll with
  | none =>
    have peaceful : ¬ spell.Attacks := by simp [Attacks, declared]
    simp [attackFormulas, declared, peaceful]
  | some formula =>
    have attacks : spell.Attacks ↔ formula ≠ "" ∧ formula ≠ noAttackMark := by simp [Attacks, declared]
    by_cases empty : formula = "" <;> by_cases marked : formula = noAttackMark <;>
      simp [attackFormulas, declared, attacks, empty, marked]

end Spell

section Healing

variable {component : DamageRoll}

/-- A type in small letters is healing when the component heals and no blanks stand around its type. -/
theorem lowered_eq_healing_iff :
    lowered component.damageType = "healing" ↔
      component.isHealing = true ∧ Text.trim component.damageType.toList = component.damageType.toList := by
  have heals : component.isHealing = true ↔
      String.ofList (Text.lower (Text.trim component.damageType.toList)) = "healing" := beq_iff_eq
  rw [heals]
  constructor
  · intro healing
    have letters : Text.lower component.damageType.toList = "healing".toList := by
      rw [← healing, lowered, String.toList_ofList]
    have solid : ∀ c ∈ component.damageType.toList, isBlank c = false := by
      intro c member
      by_contra blank
      have kept : c ∈ Text.lower component.damageType.toList :=
        mem_lowerAfter_of_isBlank (by simpa using blank) member
      have unblank : ∀ d ∈ "healing".toList, isBlank d = false := forall_of_all (by decide)
      exact blank (unblank c (letters ▸ kept))
    have trimmed : Text.trim component.damageType.toList = component.damageType.toList :=
      Text.strip_of_forall_mem solid
    exact ⟨by rw [trimmed]; exact healing, trimmed⟩
  · rintro ⟨healing, trimmed⟩
    rwa [trimmed] at healing

theorem kind_damageHeading (spell : Spell) (component : DamageRoll) :
    (spell.damageHeading component).2.1 = if lowered component.damageType = "healing" then .healing else .damage := by
  have unnamed : lowered "damage" ≠ "healing" ∧ lowered "" ≠ "healing" := by decide +kernel
  unfold Spell.damageHeading
  by_cases empty : component.damageType = ""
  · simp [empty, unnamed]
  · simp [empty]

/-- The roll for a component is of the kind that the component asks for, unless it heals and blanks stand around its
type. -/
theorem kind_damageHeading_eq_iff {spell : Spell} :
    (spell.damageHeading component).2.1 = component.kind ↔
      (component.isHealing = true →
        Text.trim component.damageType.toList = component.damageType.toList) := by
  rw [kind_damageHeading, DamageRoll.kind]
  simp only [lowered_eq_healing_iff]
  by_cases heals : component.isHealing = true
  · by_cases trimmed : Text.trim component.damageType.toList = component.damageType.toList <;> simp [heals, trimmed]
  · simp [heals]

end Healing

namespace Character

variable {c : Character} {config : Config} {settings : Settings} {castLevel : Option Int} {spell : Spell}
  {attack damage rolls : List RollRequest}

/-- An attack and damage that mirror what the spell declares. -/
structure Mirrors (c : Character) (config : Config) (castLevel : Option Int) (spell : Spell)
    (attack damage : List RollRequest) : Prop where
  attacks : attack.map (·.kind) = if spell.Attacks then [.attack] else []
  components : spell.damageRolls ≠ [] → damage.map (·.kind) = spell.damageRolls.map (·.kind)
  single : spell.damageRolls = [] → damage.length ≤ 1 ∧ ∀ roll ∈ damage, roll.kind ≠ .attack
  formulas : List.Forall₂ (c.Rolls config castLevel) spell.rolledFormulas (attack ++ damage)

section Headings

private theorem heading_of_damageRequest {component : DamageRoll} {roll : RollRequest}
    (requested : c.damageRequest config castLevel spell component.formula component.damageType = .ok roll) :
    spell.damageHeading component = roll.heading := by
  unfold damageRequest at requested
  obtain ⟨prepared, _, requested⟩ := bind_eq_ok_iff.mp requested
  obtain rfl := Except.ok.inj requested
  rfl

private theorem headings_of_attackRequest (requested : c.attackRequest config castLevel spell = .ok attack) :
    attack.map RollRequest.heading = spell.attackFormulas.map fun _ => (spell.name ++ " - Attack", .attack, none) := by
  unfold attackRequest at requested
  unfold Spell.attackFormulas
  cases declared : spell.attackRoll with
  | none =>
    rw [declared] at requested
    obtain rfl := Except.ok.inj requested
    rfl
  | some formula =>
    rw [declared] at requested
    simp only at requested ⊢
    by_cases missing : (formula.isEmpty || formula == noAttackMark) = true
    · rw [if_pos missing] at requested ⊢
      obtain rfl := Except.ok.inj requested
      rfl
    · rw [if_neg missing] at requested ⊢
      obtain ⟨prepared, _, rfl⟩ := map_eq_ok_iff.mp requested
      rfl

/-- The rolls of a spell are those of its attack and of its damage, under headings of the spell alone. -/
theorem spellRolls_cases (rolled : c.spellRolls config castLevel spell = .ok rolls) :
    ∃ attack damage, rolls = attack ++ damage ∧
      attack.map RollRequest.heading =
        (spell.attackFormulas.map fun _ => (spell.name ++ " - Attack", .attack, none)) ∧
      damage.map RollRequest.heading = (declaredDamage spell).map spell.damageHeading := by
  unfold spellRolls at rolled
  obtain ⟨attack, attacks, rolled⟩ := bind_eq_ok_iff.mp rolled
  obtain ⟨damage, damages, rolled⟩ := bind_eq_ok_iff.mp rolled
  obtain rfl := Except.ok.inj rolled
  have each := (forall₂_of_mapM damages).imp fun _ _ => heading_of_damageRequest
  exact ⟨attack, damage, rfl, headings_of_attackRequest attacks, (map_eq_map_of_forall₂ each).symm⟩

end Headings

section Kinds

theorem kinds_attack
    (headed : attack.map RollRequest.heading =
      spell.attackFormulas.map fun _ => (spell.name ++ " - Attack", .attack, none)) :
    attack.map (·.kind) = if spell.Attacks then [.attack] else [] := by
  have kinds : attack.map (·.kind) = spell.attackFormulas.map fun _ => RollKind.attack := by
    have own := congrArg (List.map fun heading : String × RollKind × Option String => heading.2.1) headed
    rwa [List.map_map, List.map_map] at own
  rw [kinds, spell.map_attackFormulas]

theorem kinds_damage (headed : damage.map RollRequest.heading = (declaredDamage spell).map spell.damageHeading) :
    damage.map (·.kind) = (declaredDamage spell).map fun component => (spell.damageHeading component).2.1 := by
  have own := congrArg (List.map fun heading : String × RollKind × Option String => heading.2.1) headed
  rwa [List.map_map, List.map_map] at own

theorem declaredDamage_of_ne_nil (some : spell.damageRolls ≠ []) : declaredDamage spell = spell.damageRolls := by
  rw [declaredDamage, if_neg (by simpa using some)]

end Kinds

/-- Rolls of the declared kinds show that no blanks stand around the types of components that heal. -/
theorem Mirrors.trimmed (rolled : c.spellRolls config castLevel spell = .ok (attack ++ damage))
    (mirrors : c.Mirrors config castLevel spell attack damage) :
    ∀ component ∈ spell.damageRolls, component.isHealing = true →
      Text.trim component.damageType.toList = component.damageType.toList := by
  intro component listed
  obtain ⟨first, later, split, attacks, damages⟩ := spellRolls_cases rolled
  have lengths : attack.length = first.length := by
    have kinds := congrArg List.length (mirrors.attacks.trans (kinds_attack attacks).symm)
    rwa [List.length_map, List.length_map] at kinds
  obtain ⟨rfl, rfl⟩ := List.append_inj split lengths
  have some := List.ne_nil_of_mem listed
  have kinds := (kinds_damage damages).symm.trans (mirrors.components some)
  rw [declaredDamage_of_ne_nil some] at kinds
  exact kind_damageHeading_eq_iff.mp (List.map_inj_left.mp kinds component listed)

end Character

end HeroSheet
