import HeroSheet.Formula.Token
import HeroSheet.Phrase

/-!
Trees from tokens. Sums of products of factors, each chain grouped to the left; a factor is a number,
a call, a sum in parentheses, or a minus sign and a factor. How deep factors may still nest is the
argument on which the reader recurs.
-/

namespace HeroSheet.Formula

/-- Reads a phrase at the front of tokens. -/
abbrev Reader (α : Type) := PhraseReader Fault Token α

def addOperator? (token : Token) : Option Operator :=
  if token.text = ['+'] then some .add else if token.text = ['-'] then some .sub else none

def mulOperator? (token : Token) : Option Operator :=
  if token.text = ['*'] then some .mul else if token.text = ['/'] then some .div else none

/-- A sum of products. -/
def sum (factor : Reader Expr) : Reader Expr :=
  PhraseReader.chain (PhraseReader.chain factor mulOperator? Expr.binary) addOperator? Expr.binary

/-- One token of a kind. -/
def expect (kind : TokenKind) (cause : Cause) : Reader Unit
  | [] => .error (.nowhere cause)
  | token :: rest =>
    if token.kind = kind then .ok ⟨((), rest), Nat.lt_succ_self _⟩
    else .error (.located token.position cause)

/-- Arguments after the first, each behind a comma. -/
def argumentsFrom (argument : Reader Expr) (ts : List Token) :
    Except Fault { read : List Expr × List Token // read.2.length ≤ ts.length } :=
  match ts with
  | [] => .ok ⟨([], []), Nat.le_refl _⟩
  | token :: rest =>
    if token.kind = .comma then
      match argument rest with
      | .error fault => .error fault
      | .ok ⟨(arg, after), shorter⟩ =>
        match argumentsFrom argument after with
        | .error fault => .error fault
        | .ok ⟨(args, last), bound⟩ => .ok ⟨(arg :: args, last), by simp at *; omega⟩
    else .ok ⟨([], token :: rest), Nat.le_refl _⟩
termination_by ts.length
decreasing_by simp at *; omega

/-- A function takes this many arguments. -/
def Function.accepts (f : Function) (count : Nat) : Bool :=
  if f.isVariadic then 2 ≤ count else count == 1

/-- The arguments of a call in parentheses; `token` names the function. -/
def call (argument : Reader Expr) (f : Function) (token : Token) : Reader Expr := fun ts =>
  match expect .openParen (.expectedOpen f) ts with
  | .error fault => .error fault
  | .ok ⟨(_, inner), opened⟩ =>
    match argument inner with
    | .error fault => .error fault
    | .ok ⟨(first, after), shorter⟩ =>
      match argumentsFrom argument after with
      | .error fault => .error fault
      | .ok ⟨(others, last), bound⟩ =>
        match expect .closeParen (.expectedArgumentsClose f) last with
        | .error fault => .error fault
        | .ok ⟨(_, rest), closed⟩ =>
          if f.accepts (first :: others).length then
            .ok ⟨(.call f (first :: others), rest), by simp at *; omega⟩
          else
            .error (.located token.position
              (if f.isVariadic then .tooFewArguments f else .notOneArgument f))

/-- A factor whose inner factors are read by `inner`. -/
def primary (inner : Reader Expr) : Reader Expr
  | [] => .error (.nowhere .unexpectedEnd)
  | token :: rest =>
    match token.kind with
    | .number =>
      match readReal? token.text with
      | none => .error .illFormed
      | some value => .ok ⟨(.number value, rest), Nat.lt_succ_self _⟩
    | .operator =>
      if token.text = ['-'] then
        match inner rest with
        | .error fault => .error fault
        | .ok ⟨(operand, after), shorter⟩ => .ok ⟨(.neg operand, after), by simp at *; omega⟩
      else .error (.located token.position (.unexpectedToken token.text))
    | .openParen =>
      match sum inner rest with
      | .error fault => .error fault
      | .ok ⟨(e, after), shorter⟩ =>
        match expect .closeParen .expectedClose after with
        | .error fault => .error fault
        | .ok ⟨(_, last), closed⟩ => .ok ⟨(e, last), by simp at *; omega⟩
    | .function =>
      match Function.ofName? token.text with
      | none => .error .illFormed
      | some f =>
        match call (sum inner) f token rest with
        | .error fault => .error fault
        | .ok ⟨read, shorter⟩ => .ok ⟨read, by simp at *; omega⟩
    | _ => .error (.located token.position (.unexpectedToken token.text))

/-- A factor in which factors may nest `room` deep, itself included. -/
def factor : Nat → Reader Expr
  | 0 => fun ts => .error (.atToken ts.head? .nestedTooDeep)
  | room + 1 => primary (factor room)

/-- The tree of a whole list of tokens. -/
def parse (ts : List Token) : Except Fault Expr :=
  if ts = [] then .error (.nowhere .emptyExpression)
  else if maxTokens < ts.length then .error (.nowhere .tooManyTokens)
  else
    match sum (factor maxDepth) ts with
    | .error fault => .error fault
    | .ok ⟨(e, []), _⟩ => .ok e
    | .ok ⟨(_, token :: _), _⟩ => .error (.located token.position (.unexpectedToken token.text))

end HeroSheet.Formula
