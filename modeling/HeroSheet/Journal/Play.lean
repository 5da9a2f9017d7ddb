import HeroSheet.Journal.Action
import HeroSheet.Journal.Cast
import HeroSheet.Journal.Roll
import HeroSheet.Play

namespace HeroSheet.Journal

/-- The entries of a move. -/
def moveEntries (play : Play) (config : Config) : Move → List Entry
  | .addEffect effect => within [] (addNotices play.session effect)
  | .addNamed name =>
    match Session.catalogEffect name with
    | .ok effect => within [] (addNotices play.session effect)
    | .error _ => []
  | .removeEffect name => within [] (removeNotices play.session name)
  | .concentrate spell => within [] (concentrateNotices play.session spell)
  | .roll label formula chosen _ =>
    prepareRollEntries play.session config play.character label formula chosen
  | .askOfferings level =>
    match config with
    | .ok settings =>
      within [] (offeringsNotices play.character settings.defaultPactLevel level)
    | .error _ => []
  | .cast spell options => castEntries play.character config spell options
  | .planAction action => within [] (planNotices play.character action)
  | .planRecovery level => within [] (recoveryNotices play.character level)
  | .useAction action => useEntries action config (some play.character)
  | .commit => within [] (changesNotices play.character play.pending)
  | .track =>
    match play.resolution with
    | some r => within [] (trackNotices play.session r)
    | none => []
  | .change changes => within [] (changesNotices play.character changes)
  | .askActive _ | .setAdvantage _ | .consumeAdvantage | .dropConcentration | .askArmorClass _
  | .askOptional _ | .askRecast _ | .askRecoverable => []

end HeroSheet.Journal
