import HeroSheet.Dice.Token
import HeroSheet.Phrase

/-!
Dice expressions from tokens: sums of products of factors, each chain grouped to the left. A factor is a
number, a pool or a sum in parentheses, with annotations behind it, or a sign and a factor.
-/

namespace HeroSheet.Dice

abbrev Reader := PhraseReader Unit Token (Expr Pool)

def addOperator? : Token → Option Operator
  | .operator op => if op.isSum then some op else none
  | _ => none

def mulOperator? : Token → Option Operator
  | .operator op => if op.isSum then none else some op
  | _ => none

/-- A sum of products. -/
def sum (factor : Reader) : Reader :=
  PhraseReader.chain (PhraseReader.chain factor mulOperator? Expr.binary) addOperator? Expr.binary

/-- The annotations at the front of tokens, as one text. -/
def notesSpan (tokens : List Token) :
    { read : List Char × List Token // read.2.length ≤ tokens.length } :=
  match tokens with
  | .notes text :: rest =>
    let ⟨(more, after), bound⟩ := notesSpan rest
    ⟨(text ++ more, after), Nat.le_succ_of_le bound⟩
  | tokens => ⟨([], tokens), Nat.le_refl _⟩

/-- A term with the annotations behind it. -/
def annotate (term : Expr Pool) (tokens : List Token) :
    { read : Expr Pool × List Token // read.2.length ≤ tokens.length } :=
  let ⟨(notes, after), bound⟩ := notesSpan tokens
  ⟨(if notes.isEmpty then term else .annotated term notes, after), bound⟩

/-- A factor whose inner factors are read by `inner`. -/
def primary (inner : Reader) : Reader
  | .number value _ :: rest =>
    let ⟨read, bound⟩ := annotate (.literal value) rest
    .ok ⟨read, Nat.lt_succ_of_le bound⟩
  | .pool pool _ :: rest =>
    let ⟨read, bound⟩ := annotate (.dice pool) rest
    .ok ⟨read, Nat.lt_succ_of_le bound⟩
  | .operator .add :: rest =>
    match inner rest with
    | .error _ => .error ()
    | .ok ⟨(operand, after), shorter⟩ => .ok ⟨(.signed false operand, after), Nat.lt_succ_of_lt shorter⟩
  | .operator .sub :: rest =>
    match inner rest with
    | .error _ => .error ()
    | .ok ⟨(operand, after), shorter⟩ => .ok ⟨(.signed true operand, after), Nat.lt_succ_of_lt shorter⟩
  | .openParen :: rest =>
    match sum inner rest with
    | .ok ⟨(term, .closeParen :: after), shorter⟩ =>
      let ⟨read, bound⟩ := annotate (.group term) after
      .ok ⟨read, by simp at *; omega⟩
    | _ => .error ()
  | _ => .error ()

/-- A factor in which factors may nest `room` deep, itself included. -/
def factor : Nat → Reader
  | 0 => fun _ => .error ()
  | room + 1 => primary (factor room)

/-- The expression of a whole list of tokens; no more factors can nest than there are tokens. -/
def parse? (tokens : List Token) : Option (Expr Pool) :=
  match sum (factor tokens.length) tokens with
  | .ok ⟨(e, []), _⟩ => some e
  | _ => none

/-- The expression that a text writes. -/
def read (cs : List Char) : Except Fault (Expr Pool) :=
  match tokens? cs with
  | none => .error .unreadable
  | some tokens =>
    match parse? tokens with
    | none => .error .unreadable
    | some e => if tokens.any Token.isTooLong then .error .numeralTooLong else .ok e

end HeroSheet.Dice
