import HeroSheet.Proofs.Cast.Resolved
import HeroSheet.Proofs.Roll.AdvantageSpent

namespace HeroSheet

/-- The call with another choice. -/
def RollCall.choosing (call : RollCall) (chosen : Option String) : RollCall := { call with chosen := chosen }

/-- The request that the call brings to the advantage step, however long its integers are. -/
def RollCall.request (call : RollCall) (s : Session) : Except RollFault RollRequest := do
  let effect ← (s.chosenEffect call.chosen).mapError .unknownEffect
  let resolved ← (call.character.prepareFormula call.config call.formula).mapError .configuration
  let added := s.contribution call.label effect
  .ok ⟨call.label, resolved ++ added.terms, call.kind.getD (.ofLabel call.label), added.notes, none⟩

/-- The request with what an effect adds to it. -/
def RollRequest.adding (request : RollRequest) (added : Contribution) : RollRequest :=
  { request with
    formula := request.formula ++ added.terms
    annotations := request.annotations ++ added.notes }

namespace Effect

end Effect

namespace Session

end Session

namespace Effect

variable {label key : String} {e : Effect} {modifier : Modifier}

/-- One of the modifiers, if the roll is one that it applies to. -/
def picked? (applies : Bool) (key : String) (e : Effect) : Option Contribution :=
  if applies then (e.modifier? key).map e.contribute else none

theorem exists_of_picked? {applies : Bool} {added : Contribution} (found : e.picked? applies key = some added) :
    ∃ modifier, e.modifier? key = some modifier ∧ added = e.contribute modifier := by
  unfold picked? at found
  cases applies with
  | false => cases found
  | true =>
    obtain ⟨modifier, held, same⟩ := Option.map_eq_some_iff.mp found
    exact ⟨modifier, held, same.symm⟩

theorem chosenContribution?_eq (label : String) (e : Effect) :
    e.chosenContribution? label =
      (e.picked? ((RollCategories.ofLabel label).skill || abilityKeywords.any (mentions (lowered label))) "skill").or
        ((e.picked? (RollCategories.ofLabel label).attack "attack").or
          (e.picked? (RollCategories.ofLabel label).save "save")) :=
  rfl

/-- What a chosen effect adds comes from one of its modifiers. -/
theorem exists_of_chosenContribution? {added : Contribution} (found : e.chosenContribution? label = some added) :
    ∃ key modifier, e.modifier? key = some modifier ∧ added = e.contribute modifier := by
  rw [chosenContribution?_eq, Option.or_eq_some_iff, Option.or_eq_some_iff] at found
  rcases found with skill | ⟨_, attack | ⟨_, save⟩⟩
  · exact ⟨"skill", exists_of_picked? skill⟩
  · exact ⟨"attack", exists_of_picked? attack⟩
  · exact ⟨"save", exists_of_picked? save⟩

end Effect

namespace Contribution

theorem append_none (a : Contribution) : a ++ none = a := by
  change Contribution.mk (a.terms ++ "") (a.notes ++ []) = a
  rw [String.append_empty, List.append_nil]

end Contribution

namespace RollRequest

variable {request : RollRequest}

end RollRequest

namespace Session

variable {s : Session} {label name : String} {e own : Effect}

/-- An active effect that does not apply by itself lends its name to one that the player may spend. -/
theorem exists_optionalEffect (active : e ∈ s.activeEffects) (optional : e.autoApply = false) :
    ∃ own, s.optionalEffect e.name = .ok own := by
  have named : (s.activeEffects.find? fun own => own.name == e.name && !own.autoApply).isSome = true := by
    rw [List.find?_isSome]
    refine ⟨e, active, ?_⟩
    rw [optional, beq_self_eq_true]
    rfl
  obtain ⟨own, found⟩ := Option.isSome_iff_exists.mp named
  refine ⟨own, ?_⟩
  unfold optionalEffect
  rw [found]

/-- Guidance, as the catalog has it. -/
def guidance : Effect := .buffOptional "Guidance" "🙏" "+1d4 to one ability check" [("skill", .text "1d4")]

end Session

end HeroSheet
