import HeroSheet.Proofs.Roll.Chosen
import HeroSheet.Proofs.Roll.Stepwise

namespace HeroSheet

/-- What an active effect adds to a roll with the label, by itself or because it was chosen. -/
def Effect.share (label : String) (e : Effect) : Contribution :=
  if e.autoApply then e.autoContribution label else (e.chosenContribution? label).getD .none

/-- The effects that bear on a roll: buffs and conditions that apply by themselves, and the chosen effect last. -/
def Session.bearing (s : Session) (chosen : Option Effect) : List Effect :=
  s.buffs.filter (·.autoApply) ++ s.conditions.filter (·.autoApply) ++ chosen.toList

/-- The roll returns its formula as it is without effects, with the suffix behind it, and the notes. -/
def RollCall.Adds (call : RollCall) (s : Session) (suffix : String) (notes : List String) : Prop :=
  ∃ resolved request, call.resolved = .ok resolved ∧ call.answer s = .ok request ∧
    request.formula = resolved ++ suffix ∧ request.annotations = notes

namespace Contribution

variable {a : Contribution} {added others : List Contribution}

private theorem concat_append : concat (added ++ others) = concat added ++ concat others := by
  unfold concat
  rw [List.foldl_append, foldl_append]
  rfl

private theorem concat_singleton : concat [a] = a := none_append a

private theorem terms_concat : (concat added).terms = String.join (added.map (·.terms)) := by
  induction added with
  | nil => rfl
  | cons a added ih =>
    rw [concat_cons, List.map_cons, String.join_cons, ← ih]
    rfl

private theorem notes_concat : (concat added).notes = added.flatMap (·.notes) := by
  induction added with
  | nil => rfl
  | cons a added ih =>
    rw [concat_cons, List.flatMap_cons, ← ih]
    rfl

/-- Members that add nothing may be left out. -/
theorem concat_map_filter {f : Effect → Contribution} {p : Effect → Bool} (idle : ∀ e, p e = false → f e = none)
    (es : List Effect) : concat (es.map f) = concat ((es.filter p).map f) := by
  induction es with
  | nil => rfl
  | cons e es ih =>
    cases own : p e with
    | true => rw [List.filter_cons_of_pos own, List.map_cons, List.map_cons, concat_cons, concat_cons, ih]
    | false =>
      rw [List.filter_cons_of_neg (by simp [own]), List.map_cons, concat_cons, idle e own, none_append, ih]

end Contribution

namespace Effect

variable {label : String} {e : Effect}

theorem share_of_auto (auto : e.autoApply = true) : e.share label = e.autoContribution label := if_pos auto

theorem share_of_optional (optional : e.autoApply = false) :
    e.share label = (e.chosenContribution? label).getD .none :=
  if_neg (by simp [optional])

private theorem autoContribution_of_optional (optional : e.autoApply = false) : e.autoContribution label = .none := by
  unfold autoContribution
  rw [optional]
  rfl

/-- All notes are signed with the icon and the name of the effect. -/
def Signs (e : Effect) (added : Contribution) : Prop := ∀ note ∈ added.notes, ∃ text, note = e.note text

theorem signs_none : e.Signs .none := fun _ member => nomatch member

theorem Signs.append {a b : Contribution} (first : e.Signs a) (second : e.Signs b) : e.Signs (a ++ b) := by
  intro note member
  rcases List.mem_append.mp member with own | own
  · exact first note own
  · exact second note own

theorem signs_contribute (modifier : Modifier) : e.Signs (e.contribute modifier) := by
  have signed (terms text : String) : e.Signs ⟨terms, [e.note text]⟩ :=
    fun note member => ⟨text, List.mem_singleton.mp member⟩
  unfold contribute
  split
  · exact signed _ _
  · split
    · exact signed _ _
    · split <;> exact signed _ _

theorem signs_contributionIf (applies : Bool) (modifier : Option Modifier) :
    e.Signs (e.contributionIf applies modifier) := by
  unfold contributionIf
  split
  · exact signs_contribute _
  · exact signs_none

private theorem signs_share : e.Signs (e.share label) := by
  cases apply : e.autoApply with
  | false =>
    rw [share_of_optional apply]
    cases given : e.chosenContribution? label with
    | none => exact signs_none
    | some added =>
      obtain ⟨_, modifier, _, rfl⟩ := exists_of_chosenContribution? given
      exact signs_contribute modifier
  | true =>
    rw [share_of_auto apply]
    unfold autoContribution
    dsimp only
    split
    · exact signs_none
    · refine (((signs_contributionIf _ _).append (signs_contributionIf _ _)).append
        (signs_contributionIf _ _)).append ?_
      split
      · exact fun note member => ⟨_, List.mem_singleton.mp member⟩
      · exact signs_none

end Effect

namespace Session

variable {s : Session} {label : String} {chosen : Option Effect}

/-- What effects add to a roll is the shares of those that bear on it. -/
theorem contribution_eq (optional : ∀ e ∈ chosen, e.autoApply = false) :
    s.contribution label chosen = .concat ((s.bearing chosen).map (Effect.share label)) := by
  have auto : s.autoContribution label =
      .concat ((s.activeEffects.filter (·.autoApply)).map (Effect.share label)) := by
    have own : ∀ e ∈ s.activeEffects.filter (·.autoApply), e.autoContribution label = e.share label :=
      fun e member => (Effect.share_of_auto (List.mem_filter.mp member).2).symm
    unfold autoContribution
    rw [Contribution.concat_map_filter (fun e => Effect.autoContribution_of_optional), List.map_congr_left own]
  have spent : (chosen.bind (Effect.chosenContribution? label)).getD .none =
      .concat (chosen.toList.map (Effect.share label)) := by
    cases chosen with
    | none => rfl
    | some e =>
      have own : e.share label = (e.chosenContribution? label).getD .none := Effect.share_of_optional (optional e rfl)
      exact own.symm.trans Contribution.concat_singleton.symm
  have order : s.bearing chosen = s.activeEffects.filter (·.autoApply) ++ chosen.toList :=
    congrArg (· ++ chosen.toList) (List.filter_append s.buffs s.conditions).symm
  rw [contribution, auto, spent, order, List.map_append, Contribution.concat_append]

private theorem choosable_of_chosenEffect {choice : Option String} {e : Effect}
    (found : s.chosenEffect choice = .ok (some e)) : ∃ name, choice = some name ∧ s.Choosable name e := by
  cases choice with
  | none => cases Except.ok.inj found
  | some name =>
    obtain ⟨own, first, same⟩ := map_eq_ok_iff.mp found
    obtain rfl := Option.some.inj same
    exact ⟨name, rfl, choosable_of_optionalEffect first⟩

end Session

namespace RollCall

variable {s after : Session} {call : RollCall} {request : RollRequest}

/-- A roll that succeeds could write the modifiers of all effects that bear on it. -/
theorem exists_written (made : call.prepare s = .ok (request, after)) :
    ∃ chosen, s.chosenEffect call.chosen = .ok chosen ∧
      s.writtenContribution call.label chosen = .ok (s.contribution call.label chosen) := by
  rw [call.prepare_eq] at made
  obtain ⟨_, reached, _⟩ := map_eq_ok_iff.mp made
  obtain ⟨chosen, found, reached⟩ := bind_eq_ok_iff.mp reached
  obtain ⟨_, _, reached⟩ := bind_eq_ok_iff.mp reached
  obtain ⟨_, written, _⟩ := bind_eq_ok_iff.mp reached
  refine ⟨chosen, mapError_eq_ok_iff.mp found, ?_⟩
  unfold Session.writtenContribution at written ⊢
  split at written
  next writable => exact if_pos writable
  next => cases written

theorem answer_of_normal (normal : s.advantage = .normal) {chosen : Option Effect} {added : Contribution}
    (found : s.chosenEffect call.chosen = .ok chosen) (written : s.writtenContribution call.label chosen = .ok added) :
    call.answer s = call.resolved.map fun resolved => (call.bare resolved).adding added := by
  have calm := Session.answer_calm call s
  rw [Session.calm_of_normal normal] at calm
  rw [calm, beforeAdvantage, ← resolved, found]
  cases call.resolved with
  | error fault => rfl
  | ok resolved =>
    dsimp only [Except.mapError, bind, Except.bind]
    rw [written]
    rfl

/-- Without advantage, a label, a choice and a session with which some roll succeeds have one suffix and one list of
notes for all rolls, whatever the formula, the character and the settings are: the shares of the effects that bear on
the roll. With settings the rolls that show them are those whose formula asks for nothing too long to be written. -/
theorem adds_alike_iff (normal : s.advantage = .normal) (made : call.prepare s = .ok (request, after)) :
    ∃ chosen suffix notes,
      s.chosenEffect call.chosen = .ok chosen ∧
      (∀ e ∈ chosen, ∃ name, call.chosen = some name ∧ s.Choosable name e) ∧
      suffix = String.join ((s.bearing chosen).map fun e => (e.share call.label).terms) ∧
      notes = ((s.bearing chosen).flatMap fun e => (e.share call.label).notes) ∧
      (∀ e : Effect, ∀ note ∈ (e.share call.label).notes, ∃ text, note = e.note text) ∧
      (∀ start : RollRequest, start.foldAll call.label s chosen = .ok (start.adding ⟨suffix, notes⟩)) ∧
      ∀ other : RollCall, other.label = call.label → other.chosen = call.chosen →
        ((other.answer s).map fun request => (request.formula, request.annotations)) =
            (other.resolved.map fun resolved => (resolved ++ suffix, notes)) ∧
          ∀ settings, other.config = .ok settings →
            (other.Adds s suffix notes ↔ other.character.writes other.formula.toList = true) ∧
              (¬ other.Adds s suffix notes → other.answer s = .error .tooLong) := by
  obtain ⟨chosen, found, written⟩ := exists_written made
  have choosable : ∀ e ∈ chosen, ∃ name, call.chosen = some name ∧ s.Choosable name e := by
    rintro e rfl
    exact Session.choosable_of_chosenEffect found
  have optional : ∀ e ∈ chosen, e.autoApply = false := by
    intro e member
    obtain ⟨name, _, _, _, optional⟩ := choosable e member
    exact optional
  let added := s.contribution call.label chosen
  have shares : added = .concat ((s.bearing chosen).map (Effect.share call.label)) := Session.contribution_eq optional
  have folded (start : RollRequest) : start.foldAll call.label s chosen = .ok (start.adding added) := by
    rw [start.foldAll_eq, written]
    rfl
  refine ⟨chosen, added.terms, added.notes, found, choosable, ?_, ?_, fun e => Effect.signs_share, folded, ?_⟩
  · rw [shares, Contribution.terms_concat, List.map_map]
    rfl
  · rw [shares, Contribution.notes_concat, List.flatMap_map]
  · intro other label choice
    have own : s.writtenContribution other.label chosen = .ok added := label.symm ▸ written
    have answered := answer_of_normal normal (choice.symm ▸ found) own
    refine ⟨?_, fun settings valid => ?_⟩
    · rw [answered]
      cases other.resolved <;> rfl
    · have adds : other.Adds s added.terms added.notes ↔ other.character.writes other.formula.toList = true := by
        rw [← exists_resolved_iff valid]
        constructor
        · rintro ⟨resolved, _, formed, _⟩
          exact ⟨resolved, formed⟩
        · rintro ⟨resolved, formed⟩
          rw [formed] at answered
          exact ⟨resolved, _, formed, answered, rfl, rfl⟩
      refine ⟨adds, fun absent => ?_⟩
      rw [answered, resolved_of_not_writes (Bool.eq_false_iff.mpr fun written => absent (adds.mpr written))]
      rfl

/-- With two conditions, then a buff, that apply by themselves, of two effects that the player may spend only the
chosen one adds to the roll, and it is the last. -/
theorem adds_alike_iff_inspired :
    let s := Session.empty.performAll
      [.addNamed "Poisoned", .addNamed "Bane", .addNamed "Guidance", .addNamed "Bardic Inspiration (d6)",
        .addNamed "Bless"]
    let request : RollRequest :=
      ⟨"Stealth Attack", "1d20 + 1d4 + -1d4 + d6", .attack,
        ["[✨ Bless: 1d4]", "[☠️ Poisoned: Disadvantage]", "[☠️ Poisoned: Disadvantage]", "[💀 Bane: -1d4]",
          "[🎵 Bardic Inspiration (d6): d6]"], none⟩
    s.advantage = .normal ∧
      (∃ after, s.prepareRoll (.ok .default) .plain "Stealth Attack" "1d20" (some "Bardic Inspiration (d6)") none =
        .ok (request, after)) ∧
      ∀ other : RollCall, other.label = "Stealth Attack" → other.chosen = some "Bardic Inspiration (d6)" →
        ((other.answer s).map fun request => (request.formula, request.annotations)) =
          other.resolved.map fun resolved => (resolved ++ " + 1d4 + -1d4 + d6", request.annotations) := by
  intro s request
  let call : RollCall := ⟨.ok .default, .plain, "Stealth Attack", "1d20", some "Bardic Inspiration (d6)", none⟩
  have made : call.answer s = .ok request := by decide +kernel
  have formed : call.resolved = .ok "1d20" := by decide +kernel
  obtain ⟨⟨_, after⟩, prepared, rfl⟩ := map_eq_ok_iff.mp made
  obtain ⟨_, suffix, notes, _, _, _, _, _, _, alike⟩ := adds_alike_iff (rfl : s.advantage = .normal) prepared
  -- The call itself shows what the suffix and the notes are.
  have own := (alike call rfl rfl).1
  rw [made, formed] at own
  obtain ⟨terms, noted⟩ := Prod.mk.inj (Except.ok.inj own)
  have split : "1d20" ++ " + 1d4 + -1d4 + d6" = "1d20" ++ suffix := terms
  refine ⟨rfl, ⟨after, prepared⟩, fun other label choice => ?_⟩
  rw [(String.append_right_inj "1d20").mp split]
  exact noted ▸ (alike other label choice).1

/-- A plain roll with the label adds nothing and succeeds, and the cleric's roll returns nothing: it has no suffix and
no notes. -/
theorem not_adds_alike_devout :
    devout.Valid ∧ Session.empty.advantage = .normal ∧
      (∃ request after, (Session.plainRoll "Check" "1d20").prepare Session.empty = .ok (request, after)) ∧
      devoutCall.answer Session.empty = .error .tooLong ∧
      ∀ suffix notes, ¬ devoutCall.Adds Session.empty suffix notes := by
  have unresolved : devoutCall.resolved = .error .tooLong := resolved_of_not_writes not_writes_devout
  have answered : devoutCall.answer Session.empty = .error .tooLong := by
    have unchosen : Session.empty.chosenEffect devoutCall.chosen = .ok none := rfl
    have nothing : Session.empty.writtenContribution devoutCall.label none = .ok .none := by decide +kernel
    have calm : Session.empty.advantage = .normal := rfl
    rw [answer_of_normal calm unchosen nothing, unresolved]
    rfl
  refine ⟨valid_devout, rfl, ?_, answered, ?_⟩
  · have made : (Session.plainRoll "Check" "1d20").answer Session.empty = .ok ⟨"Check", "1d20", .check, [], none⟩ := by
      decide +kernel
    obtain ⟨⟨request, after⟩, prepared, _⟩ := map_eq_ok_iff.mp made
    exact ⟨request, after, prepared⟩
  · rintro suffix notes ⟨resolved, _, formed, _⟩
    rw [unresolved] at formed
    cases formed

end RollCall

end HeroSheet
