import HeroSheet.Data
import HeroSheet.Entries

/-!
Reports of errors. A report is of a kind, sums up what went wrong, and tells named details in a fixed
order: those that it was given, and then those of its kind.
-/

namespace HeroSheet

inductive ErrorKind where
  | sheet
  | formula
  | malformedExpression
  | unresolvedVariable
  | resolution
  | unknownEffect
  | resourceInvariant
  | diceRoll
  | configuration
  | validation
  deriving DecidableEq, Repr

/-- A detail that a kind of error may tell. Nothing is never told; `emptyCounts` says whether empty
values are. -/
structure DetailRule where
  name : String
  emptyCounts : Bool
  deriving DecidableEq, Repr

namespace DetailRule

/-- Whether a value is told. -/
def tells (rule : DetailRule) (value : Data) : Bool :=
  match value with
  | .null => false
  | value => rule.emptyCounts || !value.isBlank

end DetailRule

namespace ErrorKind

def all : List ErrorKind :=
  [ .sheet, .formula, .malformedExpression, .unresolvedVariable, .resolution, .unknownEffect,
    .resourceInvariant, .diceRoll, .configuration, .validation ]

def name : ErrorKind → String
  | .sheet => "SheetEngineError"
  | .formula => "FormulaError"
  | .malformedExpression => "MalformedExpressionError"
  | .unresolvedVariable => "UnresolvedVariableError"
  | .resolution => "ResolutionError"
  | .unknownEffect => "UnknownEffectError"
  | .resourceInvariant => "ResourceInvariantError"
  | .diceRoll => "DiceRollError"
  | .configuration => "ConfigurationError"
  | .validation => "ValidationError"

def ofName? (name : String) : Option ErrorKind := all.find? fun k => k.name == name

/-- The kind itself and the more general kinds that it belongs to. -/
def lineage : ErrorKind → List ErrorKind
  | .sheet => [.sheet]
  | .formula => [.formula, .sheet]
  | .malformedExpression => [.malformedExpression, .formula, .sheet]
  | .unresolvedVariable => [.unresolvedVariable, .formula, .sheet]
  | .resolution => [.resolution, .sheet]
  | .unknownEffect => [.unknownEffect, .resolution, .sheet]
  | .resourceInvariant => [.resourceInvariant, .resolution, .sheet]
  | .diceRoll => [.diceRoll, .resolution, .sheet]
  | .configuration => [.configuration, .sheet]
  | .validation => [.validation, .sheet]

/-- The details of a kind, in the order in which they are told. -/
def detailRules : ErrorKind → List DetailRule
  | .formula => [⟨"expression", true⟩]
  | .malformedExpression => [⟨"position", true⟩, ⟨"character", true⟩, ⟨"expression", true⟩]
  | .unresolvedVariable => [⟨"variable", false⟩, ⟨"expression", true⟩]
  | .unknownEffect => [⟨"effect_name", false⟩]
  | .resourceInvariant =>
    [⟨"resource", false⟩, ⟨"current", true⟩, ⟨"maximum", true⟩, ⟨"delta", true⟩]
  | .diceRoll => [⟨"expression", false⟩]
  | .configuration => [⟨"config_key", false⟩]
  | .validation => [⟨"field_name", false⟩, ⟨"invalid_value", true⟩]
  | _ => []

end ErrorKind

structure Report where
  kind : ErrorKind
  summary : String
  details : List (String × Data)

namespace Report

/-- The details with one more, if there is something to tell. -/
def tell (own told : List (String × Data)) (rule : DetailRule) : List (String × Data) :=
  match Entries.get? own rule.name with
  | some value => if rule.tells value then Entries.put told rule.name value else told
  | none => told

/-- A report with the details that were given, and behind them those of its kind. -/
def about (kind : ErrorKind) (summary : String) (own given : List (String × Data)) : Report :=
  ⟨kind, summary, kind.detailRules.foldl (fun told rule => tell own told rule) given⟩

/-- The text of a report: the summary, and the details in brackets when there are any. -/
def message (r : Report) : String :=
  if r.details.isEmpty then r.summary
  else
    let shown := r.details.map fun (name, value) => name ++ "=" ++ value.shown
    r.summary ++ " [" ++ ", ".intercalate shown ++ "]"

/-- The report with its kind, as it is shown for inspection. -/
def shown (r : Report) : String :=
  r.kind.name ++ "(message=" ++ quotedString r.summary ++ ", details=" ++
    (Data.fields r.details).shown ++ ")"

end Report

end HeroSheet
