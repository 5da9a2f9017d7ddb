import HeroSheet.Session
import HeroSheet.Text.Digit
import HeroSheet.Text.Search

namespace HeroSheet

namespace Formula

/-- No digit stands here. -/
def noDigit (c : Option Char) : Bool := !c.any isDecimal

/-- Recognises a die word with no digit before or after it. -/
def standalone (die : List Char) : Text.Recogniser Unit := fun before cs =>
  if noDigit before && die.isPrefixOf cs && noDigit (cs.drop die.length).head? then
    some ((), die.length)
  else none

def countedD20 : Text.Recogniser Unit := standalone ['1', 'd', '2', '0']

def bareD20 : Text.Recogniser Unit := standalone ['d', '2', '0']

/-- The formula with a text for every single d20, written `1d20` or `d20`; none when it has no single
d20. -/
def replaceD20? (replacement : List Char) (cs : List Char) : Option (List Char) :=
  let counted := Text.pieces countedD20 cs
  let once := Text.assemble (fun _ => replacement) counted
  let bare := Text.pieces bareD20 once
  if (Text.phrases counted).isEmpty && (Text.phrases bare).isEmpty then none
  else some (Text.assemble (fun _ => replacement) bare)

end Formula

namespace Advantage

/-- What stands for a single d20. -/
def dice : Advantage → Option (List Char)
  | .normal => none
  | .advantage => some ['2', 'd', '2', '0', 'k', 'h', '1']
  | .disadvantage => some ['2', 'd', '2', '0', 'k', 'l', '1']

/-- The note of a roll that was made with it. -/
def note : Advantage → String
  | .normal => ""
  | .advantage => "[⚡ Advantage]"
  | .disadvantage => "[⚠️ Disadvantage]"

end Advantage

/-- A formula, its notes, and the session after they were made. -/
structure Advantaged where
  formula : String
  notes : List String
  session : Session
  deriving DecidableEq, Repr

/-- The formula with the advantage of the session, which is then spent. It waits when the formula has
no single d20. -/
def Session.applyAdvantage (s : Session) (formula : String) (notes : List String) : Advantaged :=
  match s.advantage.dice.bind fun dice => Formula.replaceD20? dice formula.toList with
  | none => ⟨formula, notes, s⟩
  | some replaced => ⟨String.ofList replaced, notes ++ [s.advantage.note], s.consumeAdvantage.2⟩

end HeroSheet
