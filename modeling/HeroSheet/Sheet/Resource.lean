namespace HeroSheet

/-- A counted resource, such as ki or sorcery points. -/
structure Resource where
  name : String
  current : Int
  max : Int
  variableName : Option String
  deriving DecidableEq, Repr

namespace Resource

/-- The key that addresses the resource: its variable name, or its name when it has none. -/
def key (resource : Resource) : String :=
  match resource.variableName with
  | some name => if name.isEmpty then resource.name else name
  | none => resource.name

/-- The counter lies between zero and its maximum. -/
def InBounds (resource : Resource) : Prop := 0 ≤ resource.current ∧ resource.current ≤ resource.max

instance (resource : Resource) : Decidable resource.InBounds :=
  inferInstanceAs (Decidable (_ ∧ _))

end Resource

/-- The family of counters that a change addresses. -/
inductive CounterKind where
  | spellSlot
  | pactSlot
  | resource
  deriving DecidableEq, Repr

namespace CounterKind

def name : CounterKind → String
  | .spellSlot => "spell_slot"
  | .pactSlot => "pact_slot"
  | .resource => "resource"

def ofName? (name : String) : Option CounterKind :=
  [CounterKind.spellSlot, .pactSlot, .resource].find? fun k => k.name == name

end CounterKind

/-- A signed change to one counter; to spend is to change by a negative amount. -/
structure ResourceChange where
  kind : CounterKind
  key : String
  delta : Int
  deriving DecidableEq, Repr

end HeroSheet
