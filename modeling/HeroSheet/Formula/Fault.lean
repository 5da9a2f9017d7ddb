import HeroSheet.Formula.Expr
import HeroSheet.Report

namespace HeroSheet.Formula

inductive TokenKind where
  | number
  | operator
  | function
  | openParen
  | closeParen
  | comma
  deriving DecidableEq, Repr

namespace TokenKind

def all : List TokenKind := [.number, .operator, .function, .openParen, .closeParen, .comma]

def name : TokenKind → String
  | .number => "number"
  | .operator => "operator"
  | .function => "function"
  | .openParen => "lparen"
  | .closeParen => "rparen"
  | .comma => "comma"

def ofName? (name : String) : Option TokenKind := all.find? fun k => k.name == name

end TokenKind

/-- A token, its text, and where it starts. -/
structure Token where
  kind : TokenKind
  text : List Char
  position : Nat
  deriving DecidableEq, Repr

/-- The longest expression, in tokens. -/
def maxTokens : Nat := 256

/-- The deepest nesting of parentheses, calls and minus signs. -/
def maxDepth : Nat := 32

inductive Cause where
  | unexpectedCharacter (c : Char)
  | invalidNumber (text : List Char)
  | numberOutOfRange
  | emptyExpression
  | tooManyTokens
  | nestedTooDeep
  | unexpectedEnd
  | unexpectedToken (text : List Char)
  | expectedOpen (f : Function)
  | expectedClose
  | expectedArgumentsClose (f : Function)
  | tooFewArguments (f : Function)
  | notOneArgument (f : Function)
  | divisionByZero
  | resultOutOfRange
  | cannotEvaluate (e : Expr)

def Cause.message : Cause → String
  | .unexpectedCharacter c => "Unexpected character " ++ String.ofList (Text.quoted [c])
  | .invalidNumber text => "Invalid number " ++ String.ofList (Text.quoted text)
  | .numberOutOfRange => "Number out of range"
  | .emptyExpression => "Empty expression"
  | .tooManyTokens => "Expression longer than " ++ toString maxTokens ++ " tokens"
  | .nestedTooDeep => "Expression nested deeper than " ++ toString maxDepth
  | .unexpectedEnd => "Unexpected end of expression"
  | .unexpectedToken text => "Unexpected token " ++ String.ofList (Text.quoted text)
  | .expectedOpen f => "Expected '(' after " ++ String.ofList f.name
  | .expectedClose => "Expected ')'"
  | .expectedArgumentsClose f => "Expected ')' after " ++ String.ofList f.name ++ " arguments"
  | .tooFewArguments f => String.ofList f.name ++ " needs at least two arguments"
  | .notOneArgument f => String.ofList f.name ++ " takes exactly one argument"
  | .divisionByZero => "Division by zero"
  | .resultOutOfRange => "Result out of range"
  | .cannotEvaluate e => "Cannot evaluate node " ++ e.shown

/-- Text that is not arithmetic, with the place, the character and the whole text where they are
known; or tokens and trees that no text gives rise to. -/
inductive Fault where
  | malformed (cause : Cause) (position : Option Nat) (character : Option Char)
    (expression : Option (List Char))
  | illFormed

namespace Fault

/-- A cause without a place. -/
def nowhere (cause : Cause) : Fault := .malformed cause none none none

def located (position : Nat) (cause : Cause) : Fault := .malformed cause (some position) none none

/-- A cause at a token, or without a place when the tokens have ended. -/
def atToken (token : Option Token) (cause : Cause) : Fault :=
  .malformed cause (token.map (·.position)) none none

/-- The fault of one expression. -/
def inExpression (expression : List Char) : Fault → Fault
  | .malformed cause position character _ => .malformed cause position character (some expression)
  | .illFormed => .illFormed

/-- What went wrong, without the details. -/
def summary : Fault → String
  | .malformed cause _ _ _ => cause.message
  | .illFormed => "Ill-formed expression"

def report : Fault → Report
  | .malformed cause position character expression =>
    .about .malformedExpression cause.message
      [ ("position", (position.map fun p => Data.int p).getD .null),
        ("character", (character.map fun c => Data.text (String.ofList [c])).getD .null),
        ("expression", (expression.map fun e => Data.text (String.ofList e)).getD .null) ] []
  | .illFormed => .about .formula (summary .illFormed) [] []

end Fault

end HeroSheet.Formula
