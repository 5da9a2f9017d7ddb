import HeroSheet.Action.Cost

namespace HeroSheet

/-- A count that is no integer. -/
inductive CountFault where
  | infinite
  | notANumber
  deriving DecidableEq, Repr

/-- The integer part of a count. -/
def countOf (x : Binary64) : Except CountFault Int :=
  match x.truncate? with
  | some n => .ok n
  | none => if x = .nan then .error .notANumber else .error .infinite

namespace Character

/-- A variable as a count; zero when it holds no number. -/
def count (c : Character) (name : String) : Except CountFault Int :=
  match c.number? name with
  | some x => countOf x
  | none => .ok 0

def hasVariable (c : Character) (name : String) : Bool := (c.heldVariable? name).isSome

/-- A resource whose count is kept within its bounds; none without a positive maximum. -/
def countedResource (c : Character) (name variableName : String) (maximum : Int) :
    Except CountFault (List Resource) :=
  if maximum ≤ 0 then .ok []
  else
    (c.count variableName).map fun current =>
      [⟨name, max 0 (min current maximum), maximum, some variableName⟩]

/-- Ki, under either of its names. -/
def kiResource (c : Character) : Except CountFault (List Resource) :=
  if !(c.hasVariable "ki" || c.hasVariable "kiPoints") then .ok []
  else do
    let name := if c.hasVariable "ki" then "ki" else "kiPoints"
    let first ← c.count "kiMax"
    let maximum ← if first = 0 then c.count "kiPointsMax" else .ok first
    c.countedResource "Ki" name maximum

def pactResource (c : Character) : Except CountFault (List Resource) :=
  if !c.hasVariable pactCounterName then .ok []
  else do
    let maximum ← c.count (pactCounterName ++ "Max")
    c.countedResource "Pact Magic" pactCounterName maximum

/-- The names of channel divinity, in the order in which they are looked for. -/
def channelDivinityVariables : List String :=
  ["channelDivinityCleric", "channelDivinityPaladin", "channelDivinity"]

/-- Channel divinity, under the first of its names that is there. -/
def channelDivinityResource (c : Character) : Except CountFault (List Resource) :=
  match channelDivinityVariables.find? c.hasVariable with
  | none => .ok []
  | some name => do
    let maximum ← c.count (name ++ "Max")
    c.countedResource channelDivinityName name maximum

/-- Ki, pact magic and channel divinity, as far as variables keep count of them. -/
def classResources (c : Character) : Except CountFault (List Resource) := do
  let ki ← c.kiResource
  let pact ← c.pactResource
  let divinity ← c.channelDivinityResource
  .ok (ki ++ pact ++ divinity)

end Character

end HeroSheet
