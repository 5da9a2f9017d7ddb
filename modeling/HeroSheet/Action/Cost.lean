import HeroSheet.Cast.Payment
import HeroSheet.Sheet.Action
import HeroSheet.Sheet.Change

namespace HeroSheet

/-- Costs that are paid for elsewhere. -/
def separateCosts : List String := ["kiPoints", "sorceryPoints"]

def channelDivinityName : String := "Channel Divinity"

def channelDivinityStem : String := "channelDivinity"

/-- The key belongs to channel divinity of some class. -/
def isChannelDivinity (key : String) : Bool :=
  channelDivinityStem.toList.isPrefixOf key.toList

/-- A cost that an action declares. -/
structure DeclaredCost where
  name : String
  variableName : String
  quantity : Int
  deriving DecidableEq, Repr

/-- The cost is to be paid with a resource, not elsewhere and not nothing. -/
def DeclaredCost.isCharged (cost : DeclaredCost) : Bool :=
  !(separateCosts.contains cost.variableName || cost.quantity ≤ 0)

namespace Action

def declaredCosts (action : Action) : List DeclaredCost :=
  action.costs.map fun cost => ⟨cost.statName, cost.variableName.getD "", cost.quantity⟩

end Action

namespace Character

/-- The resource that a cost refers to. Any key of channel divinity finds the resource of that name or
with such a key. -/
def costResource? (c : Character) (key : String) : Option Resource :=
  (c.findResource? key).or <|
    if isChannelDivinity key then
      c.resources.find? fun r =>
        r.name == channelDivinityName || isChannelDivinity (r.variableName.getD "")
    else none

/-- The resource that a cost is charged to. -/
def chargedResource? (c : Character) (cost : DeclaredCost) : Option Resource :=
  if cost.isCharged && !cost.variableName.isEmpty then c.costResource? cost.variableName else none

/-- What each resource has to pay, by its key, in the order in which costs name them. -/
def demands (c : Character) (costs : List DeclaredCost) : List (String × Resource × Int) :=
  costs.foldl
    (fun totals cost =>
      match c.chargedResource? cost with
      | none => totals
      | some r =>
        let before := ((Entries.get? totals r.key).map (·.2)).getD 0
        Entries.put totals r.key (r, before + cost.quantity))
    []

/-- The first resource that cannot pay what is demanded of it. -/
def shortfall? (demands : List (String × Resource × Int)) : Option InsufficientResource :=
  (demands.find? fun (_, r, total) => r.current < total).map fun (_, r, total) =>
    ⟨r.name, total, r.current⟩

/-- The changes that pay for one use of an action, or the first resource that falls short. -/
def planAction (c : Character) (action : Action) : Payment (List ResourceChange) :=
  let demands := c.demands action.declaredCosts
  match shortfall? demands with
  | some shortfall => .short shortfall
  | none => .granted (demands.map fun (key, _, total) => ⟨.resource, key, -total⟩)

end Character

end HeroSheet
