import HeroSheet.Dice.Library
import HeroSheet.Dice.Parse

/-!
A library that rolls dice expressions. Faces come from outside, one for each die in the order in which the dice are
rolled, from left to right; everything else follows from the expression.
-/

namespace HeroSheet.Dice

structure RolledPool where
  pool : Pool
  dice : List Die
  deriving DecidableEq, Repr

namespace Keep

/-- One die comes before another: the higher before the lower, or the other way round, and of equal
faces the earlier. A die is given by its face and its place. -/
def prefers (keep : Keep) (a b : Nat × Nat) : Bool :=
  (if keep.highest then b.1 < a.1 else a.1 < b.1) || (a.1 = b.1 && a.2 < b.2)

/-- A die is kept when fewer dice come before it than are kept. -/
def selects (keep : Keep) (dice : List (Nat × Nat)) (die : Nat × Nat) : Bool :=
  dice.countP (fun other => keep.prefers other die) < keep.count

end Keep

namespace Pool

/-- The faces of a pool as dice; where several things are kept, a die needs to be among one of
them. -/
def choose (pool : Pool) (faces : List Nat) : List Die :=
  let dice := faces.zipIdx
  dice.map fun die =>
    ⟨die.1, pool.keeps.isEmpty || pool.keeps.any fun keep => keep.selects dice die⟩

/-- The pool after its dice were rolled, and how many dice were rolled by then. -/
def roll (faces : Faces) (before : Nat) (pool : Pool) : Except Fault (RolledPool × Nat) :=
  if pool.count = 0 then .ok (⟨pool, []⟩, before)
  else if pool.sides = 0 then .error .zeroSided
  else if maxDice < before + pool.count then .error .tooManyDice
  else
    let shown := (List.range pool.count).map fun place => faces (before + place) pool.sides
    .ok (⟨pool, pool.choose shown⟩, before + pool.count)

end Pool

namespace RolledPool

def handful (pool : RolledPool) : Handful := ⟨pool.pool.sides, pool.dice⟩

def total (pool : RolledPool) : Nat := pool.handful.kept.foldr (· + ·) 0

end RolledPool

namespace Expr

/-- The expression with its dice rolled, and how many dice were rolled by then. -/
def roll (faces : Faces) (before : Nat) : Expr Pool → Except Fault (Expr RolledPool × Nat)
  | .literal value => .ok (.literal value, before)
  | .dice pool => (pool.roll faces before).map fun (rolled, count) => (.dice rolled, count)
  | .group inner => (inner.roll faces before).map fun (rolled, count) => (.group rolled, count)
  | .annotated inner notes =>
    (inner.roll faces before).map fun (rolled, count) => (.annotated rolled notes, count)
  | .signed negative operand =>
    (operand.roll faces before).map fun (rolled, count) => (.signed negative rolled, count)
  | .binary op left right => do
    let (first, count) ← left.roll faces before
    let (second, count) ← right.roll faces count
    .ok (.binary op first second, count)

/-- The value of a rolled expression. -/
def value : Expr RolledPool → Except ValueFault Amount
  | .literal value => .ok value
  | .dice pool => .ok (.whole pool.total)
  | .group inner => inner.value
  | .annotated inner _ => inner.value
  | .signed negative operand => operand.value.map fun v => if negative then v.neg else v
  | .binary op left right => do
    let a ← left.value
    let b ← right.value
    op.apply a b

/-- The tree of a rolled expression. -/
def node : Expr RolledPool → Node
  | .literal _ => .other []
  | .dice pool => .dice pool.handful
  | .group inner => .other [inner.node]
  | .annotated inner _ => inner.node
  | .signed _ operand => .other [operand.node]
  | .binary _ left right => .other [left.node, right.node]

end Expr

/-! The text of a roll. -/

def Keep.text (keep : Keep) : List Char :=
  'k' :: (if keep.highest then 'h' else 'l') :: naturalText keep.count

/-- The face of a die, bold when it is the lowest or the highest, and struck out when it is not
kept. -/
def Die.text (sides : Nat) (die : Die) : List Char :=
  let face := naturalText die.face
  let marked := if die.face = 1 ∨ die.face = sides then ['*', '*'] ++ face ++ ['*', '*'] else face
  if die.kept then marked else ['~', '~'] ++ marked ++ ['~', '~']

def RolledPool.text (pool : RolledPool) : List Char :=
  naturalText pool.pool.count ++ 'd' :: naturalText pool.pool.sides ++
    pool.pool.keeps.flatMap Keep.text ++ [' ', '('] ++
    [',', ' '].intercalate (pool.dice.map (Die.text pool.pool.sides)) ++ [')']

/-- The text of a rolled expression. -/
def Expr.text : Expr RolledPool → List Char
  | .literal value => value.text
  | .dice pool => pool.text
  | .group inner => '(' :: inner.text ++ [')']
  | .annotated inner notes => inner.text ++ ' ' :: notes
  | .signed negative operand => (if negative then '-' else '+') :: operand.text
  | .binary op left right => left.text ++ ' ' :: op.symbol.toList ++ ' ' :: right.text

namespace Expr

/-- The text of a total, unless it has too many digits. -/
def totalText (total : Int) : Except ValueFault (List Char) :=
  if isWritable total then .ok (integerText total) else .error .tooLong

/-- What a rolled expression comes to. -/
def rolled (e : Expr RolledPool) : Except ValueFault Rolled := do
  let total ← (← e.value).truncated
  let written ← totalText total
  .ok ⟨e.node, total, String.ofList (e.text ++ [' ', '=', ' ', '\x60'] ++ written ++ ['\x60'])⟩

end Expr

def Fault.reason? : Fault → Option String
  | .unreadable => some ""
  | .zeroSided => some "Cannot roll a 0-sided die."
  | .tooManyDice => some "Too many dice rolled."
  | .numeralTooLong | .value _ => none

/-- The library. -/
def library : Library Fault where
  roll faces expression := do
    let e ← read expression.toList
    let (rolled, _) ← e.roll faces 0
    rolled.rolled.mapError .value
  reason? := Fault.reason?

end HeroSheet.Dice
