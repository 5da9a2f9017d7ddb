import HeroSheet.Action.Recovery
import HeroSheet.Action.Use
import HeroSheet.Journal.Context
import HeroSheet.Journal.Formula
import HeroSheet.Journal.Rule

namespace HeroSheet.Journal

/-- About the options of an action. -/
def optionsNotices (action : Action) (config : Config) (c : Option Character) : List Notice :=
  match config, action.plainOptions with
  | .ok settings, .ok plain =>
    let rule := action.rule? settings c
    editionNotices c ++ ruleNotices action.name rule ++
      [.optionsBuilt action.name rule (Rule.apply rule plain)]
  | _, _ => []

/-- About using an action. -/
def useNotices (action : Action) (config : Config) (c : Option Character) : List Notice :=
  optionsNotices action config c ++
    match c, action.options config c with
    | some c, .ok application =>
      formulasNotices config c (application.options.filterMap fun o => Rule.nonempty o.formula)
    | _, _ => []

/-- What is written down about using an action. -/
def useEntries (action : Action) (config : Config) (c : Option Character) : List Entry :=
  within (.ofCharacter c [("action", .text action.name)]) (useNotices action config c)

/-- About a cost that is charged to nothing, although it should be. -/
def costNotices (c : Character) (action : Action) (cost : DeclaredCost) : List Notice :=
  if !cost.isCharged then []
  else if cost.variableName.isEmpty then [.costUnnamed action.name cost.name]
  else if (c.costResource? cost.variableName).isNone then
    [.costUntracked action.name cost.variableName]
  else []

/-- About planning what an action costs. -/
def planNotices (c : Character) (action : Action) : List Notice :=
  action.declaredCosts.flatMap (costNotices c action) ++
    match c.planAction action with
    | .short shortfall => [.actionRefused action.name shortfall.resource shortfall.required]
    | .granted _ => []

/-- About planning to recover a slot. -/
def recoveryNotices (c : Character) (level : Int) : List Notice :=
  match c.planRecovery level with
  | .ok (.granted _) => [.recoveryPlanned c.name]
  | _ => []

end HeroSheet.Journal
