import HeroSheet.Formula.Evaluate
import HeroSheet.Formula.Reference

/-!
Formulas with the values of a character in place of references. References in parentheses, bracketed
arithmetic, bold markers and arithmetic in braces are replaced one after the other; what cannot be
resolved stays as it is written, and dice are left alone. A formula that mentions the slot level is
kept whole until a slot is chosen.
-/

namespace HeroSheet

namespace Formula

/-- The letter that a character counts as when case does not matter. -/
def foldCase (c : Char) : Char := if c = 'ſ' then 's' else c.toLower

def slotLevelWord : List Char := ['s', 'l', 'o', 't', 'l', 'e', 'v', 'e', 'l']

/-- Recognises the word for the level of the chosen slot, in any case. -/
def slotLevelMention : Text.Recogniser Unit := fun _ cs =>
  if (cs.take slotLevelWord.length).map foldCase == slotLevelWord then
    some ((), slotLevelWord.length)
  else none

def mentionsSlotLevel (cs : List Char) : Bool :=
  !(Text.phrases (Text.pieces slotLevelMention cs)).isEmpty

/-- The formula with a level for every mention of the slot level. -/
def substituteSlotLevel (level : Int) (cs : List Char) : List Char :=
  Text.replacePhrases slotLevelMention (fun _ => integerText level) cs

def isNameChar (c : Char) : Bool := c.isAlphanum || c == '_'

def isPathChar (c : Char) : Bool := isNameChar c || c == '.'

/-- The longest path at the front of a text: a name, and points in it. -/
def pathSpan? : List Char → Option (List Char)
  | c :: cs => if isNameStart c then some (c :: cs.takeWhile isPathChar) else none
  | [] => none

/-- The whole text is one path. -/
def isPath (cs : List Char) : Bool := pathSpan? cs == some cs

/-- Recognises paths. -/
def path : Text.Recogniser (List Char) := fun _ cs =>
  (pathSpan? cs).map fun name => (name, name.length)

/-- Recognises a path behind `#` in parentheses, and gives it with the `#`. -/
def hashReference : Text.Recogniser (List Char) := fun _ cs =>
  match cs with
  | '(' :: '#' :: rest =>
    (pathSpan? rest).bind fun name =>
      if (rest.drop name.length).head? = some ')' then some ('#' :: name, name.length + 3) else none
  | _ => none

/-- Recognises a plain name in parentheses. -/
def parenReference : Text.Recogniser (List Char) := fun _ cs =>
  match cs with
  | '(' :: c :: rest =>
    if isNameStart c then
      let name := c :: rest.takeWhile isNameChar
      if (rest.dropWhile isNameChar).head? = some ')' then some (name, name.length + 2) else none
    else none
  | _ => none

/-- Recognises text between an opening character and the next closing one. -/
def enclosed (opening closing : Char) : Text.Recogniser (List Char) := fun _ cs =>
  match cs with
  | c :: rest =>
    if c = opening then
      let content := rest.takeWhile (· != closing)
      if content.isEmpty || content.length = rest.length then none
      else some (content, content.length + 2)
    else none
  | [] => none

def bracketed : Text.Recogniser (List Char) := enclosed '[' ']'

def braced : Text.Recogniser (List Char) := enclosed '{' '}'

def boldMarker : List Char := ['*', '*']

def isArithmeticChar (c : Char) : Bool :=
  isDecimal c || isBlank c || ['+', '-', '*', '/', '(', ')', '.'].contains c

/-- Numbers, operators, parentheses and blanks only. -/
def isPureArithmetic (cs : List Char) : Bool := !cs.isEmpty && cs.all isArithmeticChar

/-- A character that makes a text worth evaluating. -/
def isEvaluable (c : Char) : Bool := isDecimal c || ['+', '-', '*', '/', '(', ')'].contains c

/-- Functions that may wrap the whole content of brackets. -/
inductive Wrapper where
  | ceil
  | floor
  | round
  | abs
  deriving DecidableEq, Repr

namespace Wrapper

def all : List Wrapper := [.ceil, .floor, .round, .abs]

def name : Wrapper → List Char
  | .ceil => ['c', 'e', 'i', 'l']
  | .floor => ['f', 'l', 'o', 'o', 'r']
  | .round => ['r', 'o', 'u', 'n', 'd']
  | .abs => ['a', 'b', 's']

/-- The text of what a wrapper makes of a number. -/
def apply (w : Wrapper) (x : Binary64) : List Char :=
  let whole := match w with
    | .ceil => x.ceil?
    | .floor => x.floor?
    | .round => x.round?
    | .abs => none
  match whole with
  | some n => integerText n
  | none => renderNumber x.abs

/-- The argument, when the text is a call of the wrapper. -/
def argument? (w : Wrapper) (cs : List Char) : Option (List Char) :=
  let opening := w.name ++ ['(']
  let inner := (cs.drop opening.length).dropLast
  if opening.isPrefixOf cs && cs.getLast? = some ')' && !inner.isEmpty then some inner else none

end Wrapper

/-- The wrapper and its argument, when the text is a call of one. -/
def wrapped? (cs : List Char) : Option (Wrapper × List Char) :=
  Wrapper.all.findSome? fun w => (w.argument? cs).map fun inner => (w, inner)

/-- The text without its blanks. -/
def withoutBlanks (cs : List Char) : List Char := cs.filter fun c => !isBlank c

end Formula

namespace Character

open Formula

/-- The numbers that the paths in a text stand for, each path once. -/
def replacements (c : Character) (cs : List Char) : List (List Char × Value) :=
  (Text.phrases (Text.pieces path cs)).foldl
    (fun entries name =>
      match c.numericValue? name with
      | some value => Entries.put entries name value
      | none => entries)
    []

/-- The text with numbers for the paths that have one, longer paths first. -/
def substitutePaths (c : Character) (cs : List Char) : List Char :=
  ((c.replacements cs).mergeSort fun a b => b.1.length ≤ a.1.length).foldl
    (fun text (name, value) => Text.replaceAll name value.render text) cs

/-- What a wrapper in brackets comes to, when its argument becomes arithmetic. -/
def wrapperValue? (c : Character) (clean : List Char) : Option (List Char) :=
  (wrapped? clean).bind fun (w, inner) =>
    let substituted := c.substitutePaths inner
    if isPureArithmetic substituted then (evaluate substituted).toOption.map w.apply else none

/-- What the content of brackets comes to: rounded down, unless a wrapper says otherwise. -/
def bracketValue? (c : Character) (content : List Char) : Option (List Char) :=
  let clean := withoutBlanks content
  (c.wrapperValue? clean).or <|
    let substituted := c.substitutePaths clean
    if isPureArithmetic substituted then
      (evaluate substituted).toOption.bind fun x => x.floor?.map integerText
    else none

/-- The content of braces with values for its paths. -/
def substituteValues (c : Character) (content : List Char) : List Char :=
  Text.replacePhrases path (fun name => ((c.valueOf? name).map (·.render)).getD name) content

/-- What the content of braces comes to: a number, or the values alone when no name is left. -/
def braceValue? (c : Character) (content : List Char) : Option (List Char) :=
  let substituted := c.substituteValues content
  let evaluated :=
    if substituted.any isEvaluable then (evaluate substituted).toOption.map renderNumber else none
  evaluated.or <|
    if substituted ≠ content ∧ !substituted.any isNameStart then some substituted else none

/-- The value of a formula that is one variable. -/
def bareValue? (c : Character) (cs : List Char) : Option Value :=
  let trimmed := Text.trim cs
  if isPath trimmed then c.bagValue? (String.ofList trimmed) else none

def resolveHashReferences (c : Character) (cs : List Char) : List Char :=
  Text.replacePhrases hashReference
    (fun name => ((c.numericValue? name).map (·.render)).getD ('(' :: name ++ [')'])) cs

/-- The number that a variable holds, as a value. -/
def bagNumber? (c : Character) (name : List Char) : Option Value :=
  (c.bagValue? (String.ofList name)).filter (·.isNumber)

def resolveParenReferences (c : Character) (cs : List Char) : List Char :=
  Text.replacePhrases parenReference
    (fun name => ((c.bagNumber? name).map (·.render)).getD ('(' :: name ++ [')'])) cs

def resolveBrackets (c : Character) (cs : List Char) : List Char :=
  Text.replacePhrases bracketed
    (fun content => (c.bracketValue? content).getD ('[' :: content ++ [']'])) cs

def resolveBraces (c : Character) (cs : List Char) : List Char :=
  Text.replacePhrases braced
    (fun content => (c.braceValue? content).getD ('{' :: content ++ ['}'])) cs

/-- All references of a formula in turn. -/
def resolveReferences (c : Character) (cs : List Char) : List Char :=
  c.resolveBraces <| Text.removeAll boldMarker <| c.resolveBrackets <| c.resolveParenReferences <|
    c.resolveHashReferences cs

/-- The formula with the character's values, however long they are. -/
def resolve (c : Character) (cs : List Char) : List Char :=
  if mentionsSlotLevel cs then cs
  else
    match c.bareValue? cs with
    | some value => value.render
    | none => c.resolveReferences cs

/-! The values that are written while a formula is resolved. -/

def hashValues (c : Character) (cs : List Char) : List Value :=
  (Text.phrases (Text.pieces hashReference cs)).filterMap c.numericValue?

def parenValues (c : Character) (cs : List Char) : List Value :=
  (Text.phrases (Text.pieces parenReference cs)).filterMap c.bagNumber?

/-- The numbers that are written for the paths in a text. -/
def pathValues (c : Character) (cs : List Char) : List Value := (c.replacements cs).map (·.2)

/-- The numbers that are written in brackets: in the argument of a wrapper, and in the whole content when
the wrapper comes to nothing. -/
def bracketValues (c : Character) (content : List Char) : List Value :=
  let clean := withoutBlanks content
  let inner := match wrapped? clean with
    | some (_, argument) => c.pathValues argument
    | none => []
  if (c.wrapperValue? clean).isSome then inner else inner ++ c.pathValues clean

def braceValues (c : Character) (content : List Char) : List Value :=
  (Text.phrases (Text.pieces path content)).filterMap c.valueOf?

/-- The values that are written when all references of a formula are replaced in turn. -/
def referenceValues (c : Character) (cs : List Char) : List Value :=
  let hashed := c.resolveHashReferences cs
  let referred := c.resolveParenReferences hashed
  let plain := Text.removeAll boldMarker (c.resolveBrackets referred)
  c.hashValues cs ++ c.parenValues hashed ++
    (Text.phrases (Text.pieces bracketed referred)).flatMap c.bracketValues ++
    (Text.phrases (Text.pieces braced plain)).flatMap c.braceValues

/-- The values that are written when a formula is resolved. -/
def writtenValues (c : Character) (cs : List Char) : List Value :=
  if mentionsSlotLevel cs then []
  else
    match c.bareValue? cs with
    | some value => [value]
    | none => c.referenceValues cs

/-- All values that the formula asks for may be written. -/
def writes (c : Character) (cs : List Char) : Bool := (c.writtenValues cs).all Value.isWritable

/-- The formula with the character's values, unless one of them is an integer with too many digits. -/
def resolve? (c : Character) (cs : List Char) : Option (List Char) :=
  if c.writes cs then some (c.resolve cs) else none

end Character

end HeroSheet
