import HeroSheet.Number.Decimal

/-!
Numbers in dice arithmetic. Whole numbers stay exact; division, and any operation with a decimal, gives
a binary number.
-/

namespace HeroSheet.Dice

inductive Amount where
  | whole (n : Int)
  | real (x : Binary64)
  deriving DecidableEq

/-- Why an expression has no total. -/
inductive ValueFault where
  | divisionByZero
  | outOfRange
  | notANumber
  | tooLong
  deriving DecidableEq, Repr

inductive Operator where
  | add
  | sub
  | mul
  | div
  | floorDiv
  | mod
  deriving DecidableEq, Repr

namespace Operator

def symbol : Operator → String
  | .add => "+"
  | .sub => "-"
  | .mul => "*"
  | .div => "/"
  | .floorDiv => "//"
  | .mod => "%"

def isSum (op : Operator) : Bool := op == .add || op == .sub

/-- Division of one kind or another. -/
def divides (op : Operator) : Bool := op == .div || op == .floorDiv || op == .mod

end Operator

/-- A binary number, unless the size of what it stands for is out of range. -/
def finiteReal (x : Binary64) : Except ValueFault Binary64 :=
  match x with
  | .infinite _ => .error .outOfRange
  | x => .ok x

namespace Amount

def text : Amount → List Char
  | .whole n => integerText n
  | .real x => x.text

def toReal : Amount → Except ValueFault Binary64
  | .whole n => finiteReal (.ofInt n)
  | .real x => .ok x

/-- The whole part. -/
def truncated : Amount → Except ValueFault Int
  | .whole n => .ok n
  | .real x =>
    match x.truncate? with
    | some n => .ok n
    | none => .error (if x = .nan then .notANumber else .outOfRange)

def neg : Amount → Amount
  | .whole n => .whole (-n)
  | .real x => .real (-x)

end Amount

namespace Operator

/-- An operation on whole numbers whose divisor is not zero. -/
def applyWhole (op : Operator) (a b : Int) : Except ValueFault Amount :=
  match op with
  | .add => .ok (.whole (a + b))
  | .sub => .ok (.whole (a - b))
  | .mul => .ok (.whole (a * b))
  | .div => (finiteReal (.ofRatio (decide (a < 0) != decide (b < 0)) a.natAbs b.natAbs)).map .real
  | .floorDiv => .ok (.whole (a.fdiv b))
  | .mod => .ok (.whole (a.fmod b))

def applyReal (op : Operator) (x y : Binary64) : Binary64 :=
  match op with
  | .add => x + y
  | .sub => x - y
  | .mul => x * y
  | .div => x / y
  | .floorDiv => x.floorDiv y
  | .mod => x.mod y

/-- The result of an operation. -/
def apply (op : Operator) (a b : Amount) : Except ValueFault Amount :=
  match a, b with
  | .whole a, .whole b =>
    if op.divides && b = 0 then .error .divisionByZero else op.applyWhole a b
  | a, b => do
    let x ← a.toReal
    let y ← b.toReal
    if op.divides && y.isZero then .error .divisionByZero else .ok (.real (op.applyReal x y))

end Operator

end HeroSheet.Dice
