import HeroSheet.Formula.Parse

namespace HeroSheet.Formula

/-- A value, if it is finite. -/
def finiteOnly (value : Binary64) : Except Fault Binary64 :=
  if value.isFinite then .ok value else .error (.nowhere .resultOutOfRange)

/-- The first of the greatest values. -/
def greatest (first : Binary64) (others : List Binary64) : Binary64 :=
  others.foldl (fun best v => if best.lt v then v else best) first

/-- The first of the least values. -/
def least (first : Binary64) (others : List Binary64) : Binary64 :=
  others.foldl (fun best v => if v.lt best then v else best) first

def Operator.apply : Operator → Binary64 → Binary64 → Binary64
  | .add, a, b => a + b
  | .sub, a, b => a - b
  | .mul, a, b => a * b
  | .div, a, b => a / b

/-- The integer that a rounding function gives. -/
def Function.roundTo? : Function → Binary64 → Option Int
  | .floor, v => v.floor?
  | .ceil, v => v.ceil?
  | .round, v => v.round?
  | _, _ => none

mutual

/-- The value of a tree. The divisor is evaluated before the dividend. -/
def Expr.value : Expr → Except Fault Binary64
  | .number v => finiteOnly v
  | .neg operand => do finiteOnly (-(← operand.value))
  | .binary .div left right => do
    let divisor ← right.value
    if divisor.isZero then .error (.nowhere .divisionByZero)
    else finiteOnly ((← left.value) / divisor)
  | .binary op left right => do
    let a ← left.value
    let b ← right.value
    finiteOnly (op.apply a b)
  | .call .max args => do
    match ← valuesOf args with
    | [] => .error .illFormed
    | first :: others => finiteOnly (greatest first others)
  | .call .min args => do
    match ← valuesOf args with
    | [] => .error .illFormed
    | first :: others => finiteOnly (least first others)
  | .call f [arg] => do
    match f.roundTo? (← arg.value) with
    | some n => finiteOnly (.ofInt n)
    | none => .error (.nowhere .resultOutOfRange)
  | .call f args => .error (.nowhere (.cannotEvaluate (.call f args)))

/-- The values of trees, in order. -/
def valuesOf : List Expr → Except Fault (List Binary64)
  | [] => .ok []
  | e :: es => do
    let v ← e.value
    let vs ← valuesOf es
    .ok (v :: vs)

end

/-- The value of arithmetic text. -/
def evaluate (cs : List Char) : Except Fault Binary64 :=
  let result := do
    let tokens ← tokenize cs
    let e ← parse tokens
    e.value
  result.mapError (Fault.inExpression cs)

end HeroSheet.Formula
