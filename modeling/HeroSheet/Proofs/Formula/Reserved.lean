import HeroSheet.Proofs.Formula.Referred

/-!
The word that is reserved for the level of a slot. It is meant to be a word of its own, and it is looked for as any
run of its letters: a longer name that ends in it keeps a formula whole, and loses its end to the level.
-/

namespace HeroSheet

namespace Formula

open Text

/-- A letter, a digit or an underscore. -/
def isWordChar (c : Char) : Bool := isLetter c || isAnyDigit c || c == '_'

/-- Every occurrence of the reserved word continues a longer one. -/
def OnlyInLongerNames (cs : List Char) : Prop :=
  ∀ front back, cs = front ++ back → slotLevelWord <+: back.map foldCase →
    ∃ d, front.getLast? = some d ∧ isWordChar d

private theorem onlyInLongerNames_iff {cs : List Char} :
    OnlyInLongerNames cs ↔ ∀ i ∈ List.range (cs.length + 1), slotLevelWord.isPrefixOf ((cs.drop i).map foldCase) →
      (cs.take i).getLast?.any isWordChar := by
  simp only [List.isPrefixOf_iff_prefix, Option.any_eq_true]
  constructor
  · intro longer i _ starts
    exact longer (cs.take i) (cs.drop i) (List.take_append_drop i cs).symm starts
  · rintro each front back rfl starts
    have place : front.length ∈ List.range ((front ++ back).length + 1) := by
      rw [List.mem_range, List.length_append]
      omega
    have behind := each front.length place
    rw [List.drop_left, List.take_left] at behind
    exact behind starts

instance (cs : List Char) : Decidable (OnlyInLongerNames cs) := decidable_of_iff' _ onlyInLongerNames_iff

section Substituted

variable {cs : List Char} (level : Int)

theorem substituteSlotLevel_of_slotless (slotless : mentionsSlotLevel cs = false) :
    substituteSlotLevel level cs = cs := by
  rw [mentionsSlotLevel, Bool.not_eq_false', List.isEmpty_iff] at slotless
  exact finds_slotLevelMention.replacePhrases_eq_self (finds_slotLevelMention.findsNothing slotless)

/-- A formula is kept when a level is put in it exactly when there is no mention, inside of a name or not. -/
theorem substituteSlotLevel_eq_self_iff : substituteSlotLevel level cs = cs ↔ mentionsSlotLevel cs = false := by
  constructor
  · intro kept
    have left := mentionsSlotLevel_substituteSlotLevel level cs
    rwa [kept] at left
  · exact substituteSlotLevel_of_slotless level

end Substituted

end Formula

namespace Character

open Formula Text

variable {c : Character} {cs : List Char}

/-- The formula with the character's values, if no word were reserved. -/
def resolveUnreserved (c : Character) (cs : List Char) : List Char :=
  match c.bareValue? cs with
  | some value => value.render
  | none => c.resolveReferences cs

/-- Only the reserved word alone makes a formula wait: where it stands in longer names only, the formula is resolved
as any other, a name in parentheses comes to its integer, and no level is put anywhere. -/
structure ReservesOnlyToken (c : Character) (cs : List Char) : Prop where
  resolves : OnlyInLongerNames cs → c.resolve cs = c.resolveUnreserved cs
  refers : OnlyInLongerNames cs → ∀ name n, cs = within '(' ')' name → IsPlainName name →
    c.bagValue? (String.ofList name) = some (.int n) → c.resolve cs = integerText n
  keeps : OnlyInLongerNames cs → ∀ level, substituteSlotLevel level cs = cs

theorem resolve_of_slotless (slotless : mentionsSlotLevel cs = false) : c.resolve cs = c.resolveUnreserved cs := by
  rw [resolve, slotless, if_neg Bool.false_ne_true]
  rfl

/-- A formula is resolved as any other when it mentions no slot level, and also when there was nothing to resolve. -/
theorem resolve_eq_resolveUnreserved_iff :
    c.resolve cs = c.resolveUnreserved cs ↔ mentionsSlotLevel cs = false ∨ c.resolveUnreserved cs = cs := by
  cases waits : mentionsSlotLevel cs with
  | false => simp [resolve_of_slotless waits]
  | true =>
    have kept : c.resolve cs = cs := by rw [resolve, waits, if_pos rfl]
    rw [kept]
    exact eq_comm.trans (or_iff_right (Ne.symm Bool.false_ne_true)).symm

/-- The word is reserved as a token exactly where it does not occur in longer names alone. -/
theorem reservesOnlyToken_iff (c : Character) (cs : List Char) :
    c.ReservesOnlyToken cs ↔ (OnlyInLongerNames cs → mentionsSlotLevel cs = false) := by
  constructor
  · intro reserves longer
    exact (substituteSlotLevel_eq_self_iff 1).mp (reserves.keeps longer 1)
  · intro slotless
    refine ⟨fun longer => resolve_of_slotless (slotless longer), ?_, ?_⟩
    · rintro longer name n rfl plain bound
      have silent := slotless longer
      rw [mentionsSlotLevel_within (by decide) (by decide)] at silent
      exact resolve_parens plain bound silent
    · exact fun longer level => substituteSlotLevel_of_slotless level (slotless longer)

/-- The variable for the level of pact slots is not read: the formula waits for a slot, and a level takes the place
of the end of the name. -/
theorem not_reservesOnlyToken_pact :
    OnlyInLongerNames "(pactSlotLevel)".toList ∧
      (pactLeveled 3).resolve "(pactSlotLevel)".toList = "(pactSlotLevel)".toList ∧
      (pactLeveled 3).resolveUnreserved "(pactSlotLevel)".toList = "3".toList ∧
      substituteSlotLevel 3 "(pactSlotLevel)".toList = "(pact3)".toList ∧
      ¬ (pactLeveled 3).ReservesOnlyToken "(pactSlotLevel)".toList := by
  have longer : OnlyInLongerNames "(pactSlotLevel)".toList := by decide +kernel
  have spliced : substituteSlotLevel 3 "(pactSlotLevel)".toList = "(pact3)".toList := by decide +kernel
  refine ⟨longer, by decide +kernel, by decide +kernel, spliced, fun reserves => ?_⟩
  have kept := reserves.keeps longer 3
  rw [spliced] at kept
  revert kept
  decide

end Character

end HeroSheet
