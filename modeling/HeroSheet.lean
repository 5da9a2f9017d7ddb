import HeroSheet.Text.Blank
import HeroSheet.Text.Cased
import HeroSheet.Text.Digit
import HeroSheet.Text.Letter
import HeroSheet.Text.LowerCase
import HeroSheet.Text.Printable
import HeroSheet.Text.Quoted
import HeroSheet.Text.Search
import HeroSheet.Text.UpperCase
import HeroSheet.Phrase
import HeroSheet.Number.Binary64
import HeroSheet.Number.Decimal
import HeroSheet.Number.Numeral
import HeroSheet.Number.Power
import HeroSheet.Entries
import HeroSheet.Report
import HeroSheet.Settings
import HeroSheet.Formula.Evaluate
import HeroSheet.Formula.Expr
import HeroSheet.Formula.Fault
import HeroSheet.Formula.Parse
import HeroSheet.Formula.Reference
import HeroSheet.Formula.Resolve
import HeroSheet.Formula.Simplify
import HeroSheet.Formula.Token
import HeroSheet.Data
import HeroSheet.Data.Json
import HeroSheet.Record.Answer
import HeroSheet.Record.Basic
import HeroSheet.Record.Numeral
import HeroSheet.Record.Pairs
import HeroSheet.Record.Sheet
import HeroSheet.Record.Written
import HeroSheet.Sheet.Ability
import HeroSheet.Sheet.Action
import HeroSheet.Sheet.Change
import HeroSheet.Sheet.Character
import HeroSheet.Sheet.Effect
import HeroSheet.Sheet.EffectCatalog
import HeroSheet.Sheet.Resource
import HeroSheet.Sheet.Spell
import HeroSheet.Sheet.SpellSlots
import HeroSheet.Sheet.Variable
import HeroSheet.Session
import HeroSheet.Roll.Advantage
import HeroSheet.Roll.Category
import HeroSheet.Roll.Modifiers
import HeroSheet.Roll.Prepare
import HeroSheet.Roll.Request
import HeroSheet.Dice.Amount
import HeroSheet.Dice.Expr
import HeroSheet.Dice.Library
import HeroSheet.Dice.Parse
import HeroSheet.Dice.Roll
import HeroSheet.Dice.Token
import HeroSheet.Cast.Metamagic
import HeroSheet.Cast.Payment
import HeroSheet.Cast.Resolution
import HeroSheet.Cast.Rolls
import HeroSheet.Cast.Slot
import HeroSheet.Action.ClassResource
import HeroSheet.Action.Cost
import HeroSheet.Action.Recovery
import HeroSheet.Action.Use
import HeroSheet.Rule.Apply
import HeroSheet.Rule.Basic
import HeroSheet.Rule.Catalog
import HeroSheet.Rule.Edition
import HeroSheet.Rule.Name
import HeroSheet.Rule.Record
import HeroSheet.Rule.Tables
import HeroSheet.Journal.Action
import HeroSheet.Journal.Cast
import HeroSheet.Journal.Context
import HeroSheet.Journal.Formula
import HeroSheet.Journal.Notice
import HeroSheet.Journal.Play
import HeroSheet.Journal.Roll
import HeroSheet.Journal.Rule
import HeroSheet.Play
import HeroSheet.Proofs.Text.Blank
import HeroSheet.Proofs.Text.LowerCase
import HeroSheet.Proofs.Text.Replaced
import HeroSheet.Proofs.Text.Search
import HeroSheet.Proofs.Text.Severed
import HeroSheet.Proofs.Phrase
import HeroSheet.Proofs.Phrase.Chained
import HeroSheet.Proofs.Outcome
import HeroSheet.Proofs.Number.Integer
import HeroSheet.Proofs.Number.Positional
import HeroSheet.Proofs.Number.Ratio
import HeroSheet.Proofs.Number.Rounding
import HeroSheet.Proofs.Number.Shortest
import HeroSheet.Proofs.Number.Whole
import HeroSheet.Proofs.Number.Writable
import HeroSheet.Proofs.Number.Written
import HeroSheet.Proofs.Formula.Arithmetic
import HeroSheet.Proofs.Formula.Called
import HeroSheet.Proofs.Formula.Counted
import HeroSheet.Proofs.Formula.Delimiters
import HeroSheet.Proofs.Formula.Enclosed
import HeroSheet.Proofs.Formula.Evaluated
import HeroSheet.Proofs.Formula.Expressed
import HeroSheet.Proofs.Formula.Grammar
import HeroSheet.Proofs.Formula.Guessed
import HeroSheet.Proofs.Formula.Height
import HeroSheet.Proofs.Formula.Inlined
import HeroSheet.Proofs.Formula.Limits
import HeroSheet.Proofs.Formula.Located
import HeroSheet.Proofs.Formula.Malformed
import HeroSheet.Proofs.Formula.Operand
import HeroSheet.Proofs.Formula.Parsed
import HeroSheet.Proofs.Formula.Parts
import HeroSheet.Proofs.Formula.Passes
import HeroSheet.Proofs.Formula.Phrased
import HeroSheet.Proofs.Formula.Progress
import HeroSheet.Proofs.Formula.ReadBack
import HeroSheet.Proofs.Formula.Reading
import HeroSheet.Proofs.Formula.References
import HeroSheet.Proofs.Formula.Referred
import HeroSheet.Proofs.Formula.Refused
import HeroSheet.Proofs.Formula.Rendered
import HeroSheet.Proofs.Formula.Reserved
import HeroSheet.Proofs.Formula.Rounded
import HeroSheet.Proofs.Formula.Settled
import HeroSheet.Proofs.Formula.Simplify
import HeroSheet.Proofs.Formula.SlotLevel
import HeroSheet.Proofs.Formula.Spaced
import HeroSheet.Proofs.Formula.Spans
import HeroSheet.Proofs.Formula.Stacked
import HeroSheet.Proofs.Formula.Substitution
import HeroSheet.Proofs.Formula.Symbols
import HeroSheet.Proofs.Formula.Term
import HeroSheet.Proofs.Formula.Tokens
import HeroSheet.Proofs.Formula.Valued
import HeroSheet.Proofs.Formula.Wrapped
import HeroSheet.Proofs.Record.Accepted
import HeroSheet.Proofs.Sheet.Addressed
import HeroSheet.Proofs.Sheet.Batches
import HeroSheet.Proofs.Sheet.Bounds
import HeroSheet.Proofs.Sheet.Composed
import HeroSheet.Proofs.Sheet.Counters
import HeroSheet.Proofs.Sheet.Recount
import HeroSheet.Proofs.Sheet.Reordered
import HeroSheet.Proofs.Sheet.Valid
import HeroSheet.Proofs.Session.Effects
import HeroSheet.Proofs.Session.Once
import HeroSheet.Proofs.Roll.Added
import HeroSheet.Proofs.Roll.AdvantageSpent
import HeroSheet.Proofs.Roll.Atomic
import HeroSheet.Proofs.Roll.BetterFace
import HeroSheet.Proofs.Roll.Chosen
import HeroSheet.Proofs.Roll.Offered
import HeroSheet.Proofs.Roll.Rewritten
import HeroSheet.Proofs.Roll.SingleD20
import HeroSheet.Proofs.Roll.Stepwise
import HeroSheet.Proofs.Dice.Fallen
import HeroSheet.Proofs.Dice.ReadSum
import HeroSheet.Proofs.Dice.RolledSum
import HeroSheet.Proofs.Dice.SignedSum
import HeroSheet.Proofs.Cast.CastLevel
import HeroSheet.Proofs.Cast.Commit
import HeroSheet.Proofs.Cast.Concentration
import HeroSheet.Proofs.Cast.Consistent
import HeroSheet.Proofs.Cast.Mirrored
import HeroSheet.Proofs.Cast.Misselected
import HeroSheet.Proofs.Cast.Offers
import HeroSheet.Proofs.Cast.Plan
import HeroSheet.Proofs.Cast.Pools
import HeroSheet.Proofs.Cast.Resolved
import HeroSheet.Proofs.Cast.Shortfall
import HeroSheet.Proofs.Cast.Spent
import HeroSheet.Proofs.Action.Demand
import HeroSheet.Proofs.Action.Detected
import HeroSheet.Proofs.Action.Recovered
import HeroSheet.Proofs.Action.Unaltered
import HeroSheet.Proofs.Rule.Annotated
import HeroSheet.Proofs.Rule.Canonical
import HeroSheet.Proofs.Rule.Catalog
import HeroSheet.Proofs.Rule.Kept
import HeroSheet.Proofs.Rule.Name
import HeroSheet.Proofs.Rule.Qualified
