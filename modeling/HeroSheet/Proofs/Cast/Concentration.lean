import HeroSheet.Play
import HeroSheet.Proofs.Cast.Consistent
import HeroSheet.Proofs.Cast.Resolved
import HeroSheet.Proofs.Session.Once

namespace HeroSheet

/-- The spell is free by its own source, and not for being concentrated on. -/
def Spell.IsFreeBySource (spell : Spell) : Prop :=
  spell.isCantrip = true ∨ spell.isFromItem = true ∨ spell.isFree = true

/-- Moves that neither cast nor start to concentrate. -/
def Move.isAside : Move → Bool
  | .cast _ _ => false
  | .track => false
  | .concentrate spell => spell.isNone
  | _ => true

/-- What a player does in a turn: a cast that is carried through, or some other move. -/
inductive Turn where
  | cast (spell : Spell) (options : CastOptions)
  | aside (move : Move) (quiet : move.isAside = true)

namespace Play

/-- Resolves a cast, applies its changes and keeps track of what it asks for; a step that fails is the last. -/
def castThrough (play : Play) (config : Config) (spell : Spell) (options : CastOptions) : Play :=
  match play.move config (.cast spell options) with
  | (.ok (.cast (.granted _)), resolved) =>
    match resolved.move config .commit with
    | (.ok _, committed) => (committed.move config .track).2
    | (.error _, refused) => refused
  | (_, unresolved) => unresolved

def take (config : Config) (play : Play) : Turn → Play
  | .cast spell options => play.castThrough config spell options
  | .aside move _ => (play.move config move).2

/-- The play after a run of turns. -/
def after (play : Play) (config : Config) (turns : List Turn) : Play := turns.foldl (take config) play

/-- The cast is resolved and waits for a slot. -/
def Waits (play : Play) (config : Config) (spell : Spell) (options : CastOptions) : Prop :=
  ∃ r, play.character.resolveCast config spell options = .ok (.granted r) ∧ r.phase = .slotSelectionPending

/-- The cast is resolved and its changes are accepted, and it is paid for with a slot or free by its own source. -/
def Completes (play : Play) (config : Config) (spell : Spell) (options : CastOptions) : Prop :=
  ∃ r c, play.character.resolveCast config spell options = .ok (.granted r) ∧
    play.character.applyChanges r.changes = .ok c ∧ (r.IsPaid spell ∨ spell.IsFreeBySource)

/-- A spell of that name was completed in the run. -/
def Completed (play : Play) (config : Config) (turns : List Turn) (name : String) : Prop :=
  ∃ earlier spell options, earlier ++ [.cast spell options] <+: turns ∧ spell.name = name ∧
    (play.after config earlier).Completes config spell options

/-- At no point of the run does a cast that waits for a slot change the session; and where the run starts without
concentration, what is a recast at some point was completed before. -/
structure StartsOnlyCompleted (play : Play) (config : Config) (turns : List Turn) : Prop where
  waiting : ∀ front spell options, front ++ [.cast spell options] <+: turns →
    (play.after config front).Waits config spell options →
      (play.after config (front ++ [.cast spell options])).session = (play.after config front).session
  recast : play.session.concentratingOn = none → ∀ front, front <+: turns → ∀ spell,
    (play.after config front).session.isRecast spell = true → play.Completed config front spell.name

end Play

section Tracked

variable {spell : Spell} {options : CastOptions} {reusable recast tooComplicated : Bool} {rolls : List RollRequest}

theorem find?_concentration (spell : Spell) (reusable recast tooComplicated : Bool) :
    (trackingEffects spell reusable recast ++ adjudication spell tooComplicated).find?
        (fun e => e.kind == .concentration) =
      if spell.concentration && !recast then some ⟨.concentration, spell.name, none, none⟩ else none := by
  unfold trackingEffects adjudication
  cases spell.concentration && !recast <;> cases reusable && !recast <;> cases tooComplicated <;> rfl

/-- The session that concentrates on the spell from now on. -/
def Session.onto (s : Session) (spell : Spell) : Session := { s with concentratingOn := some spell.name }

private theorem Session.trackCast_resolution (s : Session) (paid : PaidCast) :
    (s.trackCast (paid.resolution spell options reusable tooComplicated rolls)).2 =
      if spell.concentration && !options.isRecast then s.onto spell else s := by
  have asked := find?_concentration spell reusable options.isRecast tooComplicated
  unfold trackCast CastResolution.effect? PaidCast.resolution
  simp only [asked]
  cases spell.concentration && !options.isRecast <;> rfl

theorem Session.trackCast_pending (s : Session) :
    (s.trackCast (spell.pending reusable tooComplicated rolls)).2 =
      if spell.concentration then s.onto spell else s := by
  have asked := find?_concentration spell reusable false tooComplicated
  unfold trackCast CastResolution.effect? Spell.pending
  rw [List.find?_cons_of_neg (by simp), asked]
  cases spell.concentration <;> rfl

/-- A cast that is no recast is paid for with a slot, or free by its own source. -/
theorem Character.PaidBy.isPaid_or_isFreeBySource {c : Character} {defaultLevel : Int} {paid : PaidCast}
    (how : c.PaidBy defaultLevel spell options paid) (fresh : options.isRecast = false) :
    (paid.resolution spell options reusable tooComplicated rolls).IsPaid spell ∨ spell.IsFreeBySource := by
  rcases how.ways with free | pays
  · right
    rcases free.exempt with cantrip | fromItem | isFree | recast
    · exact Or.inl cantrip
    · exact Or.inr (Or.inl fromItem)
    · exact Or.inr (Or.inr isFree)
    · cases fresh.symm.trans recast
  · exact Or.inl pays

end Tracked

namespace Play

variable {play : Play} {config : Config} {spell : Spell} {options : CastOptions} {turns front : List Turn}

section Step

theorem session_castThrough {r : CastResolution} {c : Character}
    (resolved : play.character.resolveCast config spell options = .ok (.granted r))
    (accepted : play.character.applyChanges r.changes = .ok c) :
    (play.castThrough config spell options).session = (play.session.trackCast r).2 := by
  unfold castThrough
  simp only [move, cast, resolved, change, accepted, track]
  rfl

/-- A cast that is at fault or short, or whose changes are refused, leaves the session as it is. -/
theorem castThrough_cases (play : Play) (config : Config) (spell : Spell) (options : CastOptions) :
    (∃ r c, play.character.resolveCast config spell options = .ok (.granted r) ∧
        play.character.applyChanges r.changes = .ok c ∧
        (play.castThrough config spell options).session = (play.session.trackCast r).2) ∨
      (play.castThrough config spell options).session = play.session := by
  rcases resolved : play.character.resolveCast config spell options with fault | r | shortfall
  · right
    unfold castThrough
    simp only [move, cast, resolved]
    rfl
  · cases changed : play.character.applyChanges r.changes with
    | ok c => exact Or.inl ⟨r, c, rfl, changed, session_castThrough resolved changed⟩
    | error fault =>
      right
      unfold castThrough
      simp only [move, cast, resolved, change, changed]
      rfl
  · right
    unfold castThrough
    simp only [move, cast, resolved]
    rfl

/-- A cast that waits starts its concentration all the same. -/
theorem session_castThrough_of_waits (waits : play.Waits config spell options) :
    (play.castThrough config spell options).session =
      if spell.concentration then play.session.onto spell else play.session := by
  obtain ⟨r, resolved, phase⟩ := waits
  obtain ⟨_, _, _, _, _, _, _, ⟨paid, _, rfl⟩ | ⟨_, rfl⟩⟩ := Character.resolveCast_cases resolved
  · exact absurd phase Character.phase_resolution_ne_pending
  · rw [session_castThrough resolved rfl, Session.trackCast_pending]

/-- What is concentrated on after a cast was before, or is a spell whose cast waits or is complete. -/
theorem concentratingOn_castThrough {name : String}
    (concentrates : (play.castThrough config spell options).session.concentratingOn = some name) :
    play.session.concentratingOn = some name ∨
      (spell.name = name ∧ spell.concentration = true ∧
        (play.Waits config spell options ∨ play.Completes config spell options)) := by
  rcases castThrough_cases play config spell options with ⟨r, c, resolved, accepted, tracked⟩ | unchanged
  · rw [tracked] at concentrates
    obtain ⟨_, _, _, _, _, _, _, ⟨paid, granted, rfl⟩ | ⟨_, rfl⟩⟩ := Character.resolveCast_cases resolved
    · rw [Session.trackCast_resolution] at concentrates
      split at concentrates
      · rename_i starts
        obtain ⟨maintained, fresh⟩ := Bool.and_eq_true_iff.mp starts
        have named : spell.name = name := Option.some.inj concentrates
        refine Or.inr ⟨named, maintained, Or.inr ⟨_, c, resolved, accepted, ?_⟩⟩
        exact (Character.paidBy_of_payCast granted).isPaid_or_isFreeBySource (by simpa using fresh)
      · exact Or.inl concentrates
    · rw [Session.trackCast_pending] at concentrates
      split at concentrates
      · rename_i maintained
        exact Or.inr ⟨Option.some.inj concentrates, maintained, Or.inl ⟨_, resolved, rfl⟩⟩
      · exact Or.inl concentrates
  · rw [unchanged] at concentrates
    exact Or.inl concentrates

/-- The move leaves what is concentrated on. -/
def Keeps (play : Play) (config : Config) (m : Move) : Prop :=
  (play.move config m).2.session.concentratingOn = play.session.concentratingOn

private theorem keeps_addNamed (play : Play) (config : Config) (name : String) :
    play.Keeps config (.addNamed name) := by
  change (play.addNamed name).2.session.concentratingOn = _
  unfold addNamed
  cases added : play.session.addNamed name with
  | error fault => rfl
  | ok pair =>
    obtain ⟨_, _, rfl⟩ := map_eq_ok_iff.mp added
    exact Session.concentratingOn_addEffect play.session _

private theorem keeps_roll (play : Play) (config : Config) (label formula : String) (chosen : Option String)
    (kind : Option RollKind) : play.Keeps config (.roll label formula chosen kind) := by
  let call : RollCall := ⟨config, play.character, label, formula, chosen, kind⟩
  change (play.roll config label formula chosen kind).2.session.concentratingOn = _
  unfold Play.roll
  cases made : play.session.prepareRoll config play.character label formula chosen kind with
  | error fault => rfl
  | ok pair =>
    have prepared : call.prepare play.session = .ok pair := made
    exact Session.concentratingOn_of_prepare prepared

theorem session_plan (play : Play) (planned : Except MoveFault (Payment (List ResourceChange))) :
    (play.plan planned).2.session = play.session := by
  cases planned <;> rfl

theorem session_change (play : Play) (changes : List ResourceChange) :
    (play.change changes).2.session = play.session := by
  unfold change
  cases play.character.applyChanges changes <;> rfl

/-- Moves beside the casts only end concentration. -/
theorem concentratingOn_aside {m : Move} (quiet : m.isAside = true) :
    play.Keeps config m ∨ (play.move config m).2.session.concentratingOn = none := by
  cases m with
  | addEffect effect => exact Or.inl (Session.concentratingOn_addEffect play.session effect)
  | addNamed name => exact Or.inl (keeps_addNamed play config name)
  | removeEffect name => exact Or.inl (Session.concentratingOn_removeEffect play.session name)
  | roll label formula chosen kind => exact Or.inl (keeps_roll play config label formula chosen kind)
  | concentrate spell =>
    obtain rfl := Option.isNone_iff_eq_none.mp quiet
    exact Or.inr rfl
  | dropConcentration => exact Or.inr rfl
  | cast _ _ => cases quiet
  | track => cases quiet
  | planAction action => exact Or.inl (congrArg Session.concentratingOn (session_plan play _))
  | planRecovery level => exact Or.inl (congrArg Session.concentratingOn (session_plan play _))
  | commit => exact Or.inl (congrArg Session.concentratingOn (session_change play _))
  | change changes => exact Or.inl (congrArg Session.concentratingOn (session_change play _))
  | _ => exact Or.inl rfl

end Step

section Run

theorem after_concat (play : Play) (config : Config) (front : List Turn) (turn : Turn) :
    play.after config (front ++ [turn]) = (play.after config front).take config turn :=
  List.foldl_concat (take config) play turn front

private theorem after_cast (play : Play) (config : Config) (spell : Spell) (options : CastOptions) :
    play.after config [.cast spell options] = play.castThrough config spell options := rfl

theorem Completed.of_isPrefix {name : String} (completed : play.Completed config front name)
    (within : front <+: turns) :
    play.Completed config turns name := by
  obtain ⟨earlier, spell, options, before, named, completes⟩ := completed
  exact ⟨earlier, spell, options, before.trans within, named, completes⟩

/-- A concentration spell is left waiting only while it is concentrated on. -/
def WaitsOnlyMaintained (play : Play) (config : Config) (turns : List Turn) : Prop :=
  ∀ front spell options, front ++ [.cast spell options] <+: turns →
    (play.after config front).Waits config spell options → spell.concentration = true →
      (play.after config front).session.concentratingOn = some spell.name

theorem WaitsOnlyMaintained.of_isPrefix (maintained : play.WaitsOnlyMaintained config turns)
    (within : front <+: turns) :
    play.WaitsOnlyMaintained config front :=
  fun earlier spell options before => maintained earlier spell options (before.trans within)

/-- What is concentrated on was completed in the run. -/
theorem completed_of_concentratingOn (unfocused : play.session.concentratingOn = none)
    (maintained : play.WaitsOnlyMaintained config turns) {name : String}
    (concentrates : (play.after config turns).session.concentratingOn = some name) :
    play.Completed config turns name := by
  induction turns using List.reverseRecOn generalizing name with
  | nil => cases unfocused.symm.trans concentrates
  | append_singleton front turn ih =>
    have within : front <+: front ++ [turn] := List.prefix_append front [turn]
    have before {own : String} (held : (play.after config front).session.concentratingOn = some own) :
        play.Completed config (front ++ [turn]) own := (ih (maintained.of_isPrefix within) held).of_isPrefix within
    rw [after_concat] at concentrates
    cases turn with
    | aside move quiet =>
      rcases concentratingOn_aside quiet with kept | ended
      · exact before (kept.symm.trans concentrates)
      · cases ended.symm.trans concentrates
    | cast spell options =>
      rcases concentratingOn_castThrough concentrates with held | ⟨named, lasting, waits | completes⟩
      · exact before held
      · rw [← named]
        exact before (maintained front spell options (List.prefix_refl _) waits lasting)
      · exact ⟨front, spell, options, List.prefix_refl _, named, completes⟩

private theorem startsOnlyCompleted_of_maintained (maintained : play.WaitsOnlyMaintained config turns) :
    play.StartsOnlyCompleted config turns where
  waiting front spell options within waits := by
    rw [after_concat]
    refine (session_castThrough_of_waits waits).trans ?_
    split
    · rename_i lasting
      have held := maintained front spell options within waits lasting
      rw [Session.onto, ← held]
    · rfl
  recast unfocused front within spell recast := by
    have held := (Bool.and_eq_true_iff.mp recast).2
    exact completed_of_concentratingOn unfocused (maintained.of_isPrefix within) (beq_iff_eq.mp held)

private theorem maintained_of_startsOnlyCompleted (starts : play.StartsOnlyCompleted config turns) :
    play.WaitsOnlyMaintained config turns := by
  intro front spell options within waits lasting
  have unchanged := starts.waiting front spell options within waits
  rw [after_concat] at unchanged
  have tracked := (session_castThrough_of_waits waits).symm.trans unchanged
  rw [if_pos lasting] at tracked
  rw [← tracked]
  rfl

/-- A run starts only what it completes exactly when no concentration spell is left waiting in it that is not
concentrated on. -/
theorem startsOnlyCompleted_iff (play : Play) (config : Config) (turns : List Turn) :
    play.StartsOnlyCompleted config turns ↔ play.WaitsOnlyMaintained config turns :=
  ⟨maintained_of_startsOnlyCompleted, startsOnlyCompleted_of_maintained⟩

end Run

/-- A spell of the first level that is maintained by concentration. -/
def lastingSpell : Spell := { Character.bareSpell 1 with concentration := true }

/-- Cast without a slot it waits, and is a recast from then on although nothing was completed. -/
theorem not_startsOnlyCompleted_lasting :
    lastingSpell.Valid ∧ Character.plain.Valid ∧
      (start .plain .empty).Waits (.ok .default) lastingSpell .none ∧
      ((start .plain .empty).after (.ok .default) [.cast lastingSpell .none]).session.isRecast lastingSpell = true ∧
      ¬ (start .plain .empty).StartsOnlyCompleted (.ok .default) [.cast lastingSpell .none] := by
  have waits : (start .plain .empty).Waits (.ok .default) lastingSpell .none :=
    Character.resolveCast_of_waiting rfl
  have tracked : ((start .plain .empty).after (.ok .default) [.cast lastingSpell .none]).session =
      Session.empty.onto lastingSpell := by
    rw [after_cast, session_castThrough_of_waits waits]
    rfl
  have valid : (Character.bareSpell 1).Valid := Character.valid_bareSpell (by decide) (by decide)
  refine ⟨⟨valid.named, valid.level, valid.damage⟩, Character.valid_plain, waits, ?_, ?_⟩
  · rw [tracked]
    rfl
  · intro starts
    have unchanged := starts.waiting [] lastingSpell .none (List.prefix_refl _) waits
    cases tracked.symm.trans unchanged

end Play

end HeroSheet
