import HeroSheet.Action.Recovery
import HeroSheet.Action.Use
import HeroSheet.Cast.Resolution

/-!
Playing a character: one sheet, one session, the changes that wait to be paid, and the cast that was
resolved last. A move answers with a reply or a fault. A fault leaves everything as it is, except that
a move that plans something drops what waited before.
-/

namespace HeroSheet

structure Play where
  character : Character
  session : Session
  pending : List ResourceChange
  resolution : Option CastResolution
  deriving DecidableEq

inductive Move where
  | addEffect (effect : Effect)
  | addNamed (name : String)
  | removeEffect (name : String)
  | askActive (name : String)
  | setAdvantage (state : Advantage)
  | consumeAdvantage
  | concentrate (spell : Option String)
  | dropConcentration
  | askArmorClass (base : Option Int)
  | askOptional (label : String)
  | roll (label formula : String) (chosen : Option String) (kind : Option RollKind)
  | askOfferings (level : Int)
  | askRecast (spell : Spell)
  | cast (spell : Spell) (options : CastOptions)
  | planAction (action : Action)
  | planRecovery (level : Int)
  | askRecoverable
  | useAction (action : Action)
  | commit
  | track
  | change (changes : List ResourceChange)
  deriving DecidableEq

inductive Reply where
  | nothing
  | text (value : String)
  | maybeText (value : Option String)
  | flag (value : Bool)
  | number (value : Int)
  | numbers (values : List Int)
  | effects (names : List String)
  | state (value : Advantage)
  | request (value : RollRequest)
  | offerings (values : List SlotOffering)
  | cast (result : Payment CastResolution)
  | plan (result : Payment (List ResourceChange))
  | use (value : ActionResolution)
  deriving DecidableEq

inductive MoveFault where
  | unknownEffect (fault : UnknownEffect)
  | configuration (fault : ConfigurationFault)
  | roll (fault : RollFault)
  | slot (fault : SlotFault)
  | cast (fault : CastFault)
  | action (fault : ActionFault)
  | recovery (fault : RecoveryFault)
  | change (stop : ChangeStop)
  deriving DecidableEq

namespace Play

/-- A character and a session with nothing waiting. -/
def start (c : Character) (s : Session) : Play := ⟨c, s, [], none⟩

/-- The play with another session. -/
def inSession (play : Play) (reply : Reply) (s : Session) : Except MoveFault Reply × Play :=
  (.ok reply, { play with session := s })

/-- An answer that changes nothing. -/
def answers (play : Play) (answer : Except MoveFault Reply) : Except MoveFault Reply × Play :=
  (answer, play)

/-- The changes that a payment makes wait. -/
def waiting : Payment (List ResourceChange) → List ResourceChange
  | .granted changes => changes
  | .short _ => []

/-- Activates an effect of the catalog. -/
def addNamed (play : Play) (name : String) : Except MoveFault Reply × Play :=
  match play.session.addNamed name with
  | .ok (effect, s) => play.inSession (.text effect.name) s
  | .error fault => play.answers (.error (.unknownEffect fault))

def roll (play : Play) (config : Config) (label formula : String) (chosen : Option String)
    (kind : Option RollKind) : Except MoveFault Reply × Play :=
  match play.session.prepareRoll config play.character label formula chosen kind with
  | .ok (request, s) => play.inSession (.request request) s
  | .error fault => play.answers (.error (.roll fault))

/-- The slots that are offered, with the pact slot level of the settings. -/
def offerings (play : Play) (config : Config) (level : Int) : Except MoveFault Reply := do
  let settings ← config.mapError .configuration
  let offerings ← (play.character.slotOfferings settings.defaultPactLevel level).mapError .slot
  .ok (.offerings offerings)

/-- The play before changes are planned: nothing waits. -/
def beforePlan (play : Play) : Play := { play with pending := [] }

/-- The play before a cast: nothing waits, and no cast was resolved last. -/
def beforeCast (play : Play) : Play := { play.beforePlan with resolution := none }

/-- Resolves a cast; what waited before is dropped, and the changes of the cast wait. -/
def cast (play : Play) (config : Config) (spell : Spell) (options : CastOptions) :
    Except MoveFault Reply × Play :=
  match play.character.resolveCast config spell options with
  | .ok (.granted r) =>
    (.ok (.cast (.granted r)), { play with pending := r.changes, resolution := some r })
  | .ok (.short shortfall) => play.beforeCast.answers (.ok (.cast (.short shortfall)))
  | .error fault => play.beforeCast.answers (.error (.cast fault))

/-- Plans changes; what waited before is dropped, and they wait. -/
def plan (play : Play) (planned : Except MoveFault (Payment (List ResourceChange))) :
    Except MoveFault Reply × Play :=
  match planned with
  | .ok payment => (.ok (.plan payment), { play with pending := waiting payment })
  | .error fault => play.beforePlan.answers (.error fault)

/-- Applies changes to the character. -/
def change (play : Play) (changes : List ResourceChange) : Except MoveFault Reply × Play :=
  match play.character.applyChanges changes with
  | .ok c => (.ok .nothing, { play with character := c })
  | .error stop => play.answers (.error (.change stop))

/-- Keeps track of the concentration that the last cast asks for. -/
def track (play : Play) : Except MoveFault Reply × Play :=
  match play.resolution with
  | none => play.answers (.ok .nothing)
  | some r =>
    let (broken, s) := play.session.trackCast r
    play.inSession (.maybeText broken) s

/-- The answer to a move, and the play after it. Committing applies what waits and keeps it
waiting. -/
def move (play : Play) (config : Config) : Move → Except MoveFault Reply × Play
  | .addEffect effect =>
    let (active, s) := play.session.addEffect effect
    play.inSession (.text active.name) s
  | .addNamed name => play.addNamed name
  | .removeEffect name =>
    let (removed, s) := play.session.removeEffect name
    play.inSession (.maybeText (removed.map (·.name))) s
  | .askActive name => play.answers (.ok (.flag (play.session.isActive name)))
  | .setAdvantage state => play.inSession .nothing { play.session with advantage := state }
  | .consumeAdvantage =>
    let (state, s) := play.session.consumeAdvantage
    play.inSession (.state state) s
  | .concentrate spell =>
    let (broken, s) := play.session.concentrate spell
    play.inSession (.maybeText broken) s
  | .dropConcentration =>
    let (broken, s) := play.session.dropConcentration
    play.inSession (.maybeText broken) s
  | .askArmorClass base => play.answers (.ok (.number (play.session.totalArmorClass base)))
  | .askOptional label =>
    play.answers (.ok (.effects ((play.session.applicableEffects label).map (·.name))))
  | .roll label formula chosen kind => play.roll config label formula chosen kind
  | .askOfferings level => play.answers (play.offerings config level)
  | .askRecast spell => play.answers (.ok (.flag (play.session.isRecast spell)))
  | .cast spell options => play.cast config spell options
  | .planAction action => play.plan (.ok (play.character.planAction action))
  | .planRecovery level => play.plan ((play.character.planRecovery level).mapError .recovery)
  | .askRecoverable =>
    play.answers ((play.character.recoverableLevels.mapError MoveFault.recovery).map Reply.numbers)
  | .useAction action =>
    play.answers (((action.use config (some play.character)).mapError MoveFault.action).map Reply.use)
  | .commit => play.change play.pending
  | .track => play.track
  | .change changes => play.change changes

end Play

end HeroSheet
