import HeroSheet.Dice.Amount

namespace HeroSheet.Dice

/-- Keeps the highest or the lowest dice of a pool. -/
structure Keep where
  highest : Bool
  count : Nat
  deriving DecidableEq, Repr

/-- Dice with the same number of sides. Without any `keeps` all of them count. -/
structure Pool where
  count : Nat
  sides : Nat
  keeps : List Keep
  deriving DecidableEq, Repr

/-- An expression whose leaves are numbers and dice. -/
inductive Expr (δ : Type) where
  | literal (value : Amount)
  | dice (pool : δ)
  | group (inner : Expr δ)
  | annotated (inner : Expr δ) (notes : List Char)
  | signed (negative : Bool) (operand : Expr δ)
  | binary (op : Operator) (left right : Expr δ)
  deriving DecidableEq

/-- The most dice that one expression may roll. -/
def maxDice : Nat := 1000

/-- Why an expression cannot be rolled. -/
inductive Fault where
  | unreadable
  | numeralTooLong
  | zeroSided
  | tooManyDice
  | value (fault : ValueFault)
  deriving DecidableEq, Repr

end HeroSheet.Dice
