import HeroSheet.Journal.Notice
import HeroSheet.Roll.Prepare

namespace HeroSheet.Journal

open HeroSheet.Formula

/-- The fault of evaluating a text, if there is one. -/
def evaluationFault? (cs : List Char) : Option String :=
  match evaluate cs with
  | .ok _ => none
  | .error fault => some fault.summary

/-- Each path in a text that stands for no number. -/
def unresolvedPaths (c : Character) (formula cs : List Char) : List Notice :=
  ((Text.phrases (Text.pieces path cs)).filter fun name => (c.numericValue? name).isNone).map
    fun name => .variableUnresolved name formula

/-- About the argument of a wrapper that fills brackets. -/
def wrapperNotices (c : Character) (formula clean : List Char) : List Notice :=
  match wrapped? clean with
  | none => []
  | some (_, inner) =>
    let substituted := c.substitutePaths inner
    let failure := if isPureArithmetic substituted then evaluationFault? substituted else none
    unresolvedPaths c formula inner ++ (failure.map (Notice.wrapperFailed clean)).toList

/-- About the content of brackets. -/
def bracketNotices (c : Character) (formula content : List Char) : List Notice :=
  let clean := withoutBlanks content
  wrapperNotices c formula clean ++
    if (c.wrapperValue? clean).isSome then []
    else
      let substituted := c.substitutePaths clean
      unresolvedPaths c formula clean ++
        if isPureArithmetic substituted then
          ((evaluationFault? substituted).map (Notice.bracketFailed clean)).toList
        else [.bracketUnresolved clean substituted]

/-- About the content of braces. -/
def braceNotices (c : Character) (content : List Char) : List Notice :=
  let substituted := c.substituteValues content
  if substituted.any isEvaluable then
    ((evaluationFault? substituted).map (Notice.braceFailed content)).toList
  else []

/-- About a formula that is one path without a value. -/
def bareNotices (cs : List Char) : List Notice :=
  let trimmed := Text.trim cs
  if isPath trimmed then [.variableUnresolved trimmed cs] else []

/-- About the references of a formula, in the order in which they are replaced. -/
def referenceNotices (c : Character) (cs : List Char) : List Notice :=
  let hashed := (Text.phrases (Text.pieces hashReference cs)).filter fun name =>
    (c.numericValue? name).isNone
  let referred := c.resolveParenReferences (c.resolveHashReferences cs)
  let plain := Text.removeAll boldMarker (c.resolveBrackets referred)
  hashed.map (fun name => .variableUnresolved name cs) ++
    (Text.phrases (Text.pieces bracketed referred)).flatMap (bracketNotices c cs) ++
    (Text.phrases (Text.pieces braced plain)).flatMap (braceNotices c)

/-- About resolving a formula. -/
def resolveNotices (c : Character) (cs : List Char) : List Notice :=
  if mentionsSlotLevel cs then [.slotLevelReserved cs]
  else
    match c.bareValue? cs with
    | some value => [.variableResolved (Text.trim cs) value]
    | none =>
      let result := c.resolveReferences cs
      bareNotices cs ++ referenceNotices c cs ++
        if result = cs then [] else [.formulaResolved cs result]

/-- About one pass of simplification. -/
def passNotices (cs : List Char) : List Notice :=
  if isPureArithmetic cs then ((evaluationFault? cs).map (Notice.arithmeticKept cs)).toList
  else
    match countAndDice? cs with
    | none => []
    | some (count, _) =>
      if isCount count then ((evaluationFault? count).map (Notice.countKept count)).toList else []

/-- About all passes of simplification. -/
def passesNotices : (limit : Nat) → List Char → List Notice
  | 0, _ => []
  | limit + 1, cs =>
    let next := simplifyOnce cs
    passNotices cs ++ if next = cs then [] else passesNotices limit next

/-- About simplifying a formula within a limit. -/
def simplifyNotices (limit : Nat) (cs : List Char) : List Notice :=
  let result := simplify limit cs
  passesNotices limit cs ++
    if result = cs then [] else [.formulaSimplified cs result (passCount limit cs)]

/-- About simplifying a formula; without settings there is nothing to tell. -/
def simplifyWithinNotices (config : Config) (limit : Option Int) (cs : List Char) : List Notice :=
  if cs.isEmpty then []
  else
    match passLimit config limit with
    | .ok passes => simplifyNotices passes cs
    | .error _ => []

/-- About resolving and simplifying a formula. -/
def prepareFormulaNotices (config : Config) (c : Character) (formula : String) : List Notice :=
  let cs := formula.toList
  resolveNotices c cs ++ simplifyWithinNotices config none (c.resolve cs)

/-- About preparing formulas one after the other, up to the first that cannot be prepared. -/
def formulasNotices (config : Config) (c : Character) : List String → List Notice
  | [] => []
  | formula :: formulas =>
    prepareFormulaNotices config c formula ++
      match c.prepareFormula config formula with
      | .ok _ => formulasNotices config c formulas
      | .error _ => []

end HeroSheet.Journal
