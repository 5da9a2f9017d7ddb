import HeroSheet.Formula.Fault
import HeroSheet.Text.Blank

namespace HeroSheet.Formula

def isNumeralChar (c : Char) : Bool := isAnyDigit c || c == '.'

/-- The kind of a character that is a token by itself. -/
def symbolKind? : Char → Option TokenKind
  | '+' | '-' | '*' | '/' => some .operator
  | '(' => some .openParen
  | ')' => some .closeParen
  | ',' => some .comma
  | _ => none

/-- Functions may be written with this in front. -/
def functionQualifier : List Char := ['M', 'a', 't', 'h', '.']

/-- What stands at the front of `c :: cs`: a blank or a token, and how many characters of `cs` belong
to it. -/
def readToken (position : Nat) (c : Char) (cs : List Char) : Except Fault (Option Token × Nat) :=
  if isBlank c then .ok (none, 0)
  else if isNumeralChar c then
    let text := c :: cs.takeWhile isNumeralChar
    match readReal? text with
    | none => .error (.located position (.invalidNumber text))
    | some value =>
      if value.isFinite then .ok (some ⟨.number, text, position⟩, text.length - 1)
      else .error (.located position .numberOutOfRange)
  else
    match symbolKind? c with
    | some kind => .ok (some ⟨kind, [c], position⟩, 0)
    | none =>
      let qualified := functionQualifier.isPrefixOf (c :: cs)
      let skipped := if qualified then functionQualifier.length else 0
      let name := ((c :: cs).drop skipped).takeWhile isLetter
      if isLetter c && (Function.ofName? name).isSome then
        .ok (some ⟨.function, name, position⟩, skipped + name.length - 1)
      else .error (.malformed (.unexpectedCharacter c) (some position) (some c) none)

/-- The tokens of a text that starts at a position. -/
def tokensFrom (position : Nat) : List Char → Except Fault (List Token)
  | [] => .ok []
  | c :: cs => do
    let (token, more) ← readToken position c cs
    let tokens ← tokensFrom (position + more + 1) (cs.drop more)
    .ok (token.toList ++ tokens)
termination_by cs => cs.length
decreasing_by simp only [List.length_cons, List.length_drop]; omega

/-- The tokens of a text, in order. -/
def tokenize (cs : List Char) : Except Fault (List Token) :=
  (tokensFrom 0 cs).mapError (Fault.inExpression cs)

end HeroSheet.Formula
