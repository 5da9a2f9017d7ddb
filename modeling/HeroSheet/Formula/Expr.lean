import HeroSheet.Number.Numeral

namespace HeroSheet.Formula

inductive Operator where
  | add
  | sub
  | mul
  | div
  deriving DecidableEq, Repr

inductive Function where
  | floor
  | ceil
  | round
  | max
  | min
  deriving DecidableEq, Repr

namespace Operator

def symbol : Operator → Char
  | .add => '+'
  | .sub => '-'
  | .mul => '*'
  | .div => '/'

def all : List Operator := [.add, .sub, .mul, .div]

def ofName? (name : List Char) : Option Operator := all.find? fun op => [op.symbol] == name

end Operator

namespace Function

def all : List Function := [.floor, .ceil, .round, .max, .min]

def name : Function → List Char
  | .floor => ['f', 'l', 'o', 'o', 'r']
  | .ceil => ['c', 'e', 'i', 'l']
  | .round => ['r', 'o', 'u', 'n', 'd']
  | .max => ['m', 'a', 'x']
  | .min => ['m', 'i', 'n']

def ofName? (name : List Char) : Option Function := all.find? fun f => f.name == name

/-- `max` and `min` take two or more arguments, the others exactly one. -/
def isVariadic (f : Function) : Bool := f == .max || f == .min

end Function

inductive Expr where
  | number (value : Binary64)
  | neg (operand : Expr)
  | binary (op : Operator) (left right : Expr)
  | call (function : Function) (args : List Expr)
  deriving Inhabited

namespace Expr

def operatorText : Operator → String
  | .add => "<Operator.ADD: '+'>"
  | .sub => "<Operator.SUB: '-'>"
  | .mul => "<Operator.MUL: '*'>"
  | .div => "<Operator.DIV: '/'>"

def functionText (f : Function) : String :=
  let name := String.ofList f.name
  "<Function." ++ String.ofList (f.name.map Char.toUpper) ++ ": '" ++ name ++ "'>"

mutual

/-- The tree as a message shows it. -/
def shown : Expr → String
  | .number value => "Number(value=" ++ String.ofList value.text ++ ")"
  | .neg operand => "UnaryOp(operand=" ++ operand.shown ++ ")"
  | .binary op left right =>
    "BinaryOp(op=" ++ operatorText op ++ ", left=" ++ left.shown ++ ", right=" ++ right.shown ++ ")"
  | .call f args =>
    let items := shownArgs args
    let closing := if items.length = 1 then ",)" else ")"
    "Call(function=" ++ functionText f ++ ", args=(" ++ ", ".intercalate items ++ closing ++ ")"

def shownArgs : List Expr → List String
  | [] => []
  | arg :: args => arg.shown :: shownArgs args

end

end Expr

end HeroSheet.Formula
