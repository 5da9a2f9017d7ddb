import HeroSheet.Formula.Resolve

/-!
Arithmetic that is left in a resolved formula. Pure arithmetic becomes a number, and so does the count
in front of dice; passes repeat until nothing changes or the limit is reached.
-/

namespace HeroSheet.Formula

/-- The start of a die: `d` and a digit. -/
def startsDie : List Char → Bool
  | c :: d :: _ => (c == 'd' || c == 'D') && isDecimal d
  | _ => false

/-- The text before the first die that something stands before, and the text from there on. -/
def splitAtDie? : List Char → Option (List Char × List Char)
  | [] => none
  | c :: cs =>
    if startsDie cs then some ([c], cs)
    else (splitAtDie? cs).map fun (before, dice) => (c :: before, dice)

/-- The parts of a formula of one line before and from its first die. A line end after it is
dropped. -/
def countAndDice? (cs : List Char) : Option (List Char × List Char) :=
  let line := Text.withoutFinalNewline cs
  if line.contains '\n' then none else splitAtDie? line

/-- A text that may be the count of dice: digits, or a group or call from its first parenthesis to its
last. -/
def isCount (cs : List Char) : Bool :=
  let unqualified := if functionQualifier.isPrefixOf cs then cs.drop functionQualifier.length else cs
  let group := unqualified.dropWhile Char.isLower
  (!cs.isEmpty && cs.all isDecimal) ||
    (group.head? = some '(' && 2 ≤ group.length && group.getLast? = some ')')

/-- One pass over a formula. -/
def simplifyOnce (cs : List Char) : List Char :=
  if isPureArithmetic cs then
    match evaluate cs with
    | .ok x => renderNumber x
    | .error _ => cs
  else
    match countAndDice? cs with
    | none => cs
    | some (count, dice) =>
      if isCount count then
        match evaluate count with
        | .ok x => renderNumber x ++ dice
        | .error _ => cs
      else cs

/-- The formula after passes that change it, `limit` of them at most. -/
def simplify : (limit : Nat) → List Char → List Char
  | 0, cs => cs
  | limit + 1, cs =>
    let next := simplifyOnce cs
    if next = cs then cs else simplify limit next

/-- The number of passes that `simplify` makes, the one that changes nothing included. -/
def passCount : (limit : Nat) → List Char → Nat
  | 0, _ => 0
  | limit + 1, cs =>
    let next := simplifyOnce cs
    if next = cs then 1 else passCount limit next + 1

end HeroSheet.Formula
