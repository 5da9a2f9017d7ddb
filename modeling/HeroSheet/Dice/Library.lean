import HeroSheet.Report
import HeroSheet.Settings
import HeroSheet.Text.Blank

/-!
Rolling a formula with a dice library. The library rolls the dice, adds them up and writes them down; which dice were
kept, and what the kept d20 means, is read off the tree that it returns.
-/

namespace HeroSheet.Dice

/-- The face of each die: by how many were rolled before it, and by its number of sides. -/
abbrev Faces := Nat → Nat → Nat

/-- Faces that follow a list over and over, counted on from one again beyond the number of sides;
every die shows one when the list is empty. -/
def Faces.ofList (rolls : List Int) : Faces := fun place sides =>
  match rolls[place % rolls.length]? with
  | some n => ((n - 1) % sides).toNat + 1
  | none => 1

structure Die where
  face : Nat
  kept : Bool
  deriving DecidableEq, Repr

/-- Dice with the same number of sides that are rolled together. -/
structure Handful where
  sides : Nat
  dice : List Die
  deriving DecidableEq, Repr

def Handful.kept (handful : Handful) : List Nat := (handful.dice.filter (·.kept)).map (·.face)

/-- A rolled expression: dice, or whatever is made of other parts. -/
inductive Node where
  | dice (handful : Handful)
  | other (parts : List Node)

namespace Node

mutual

/-- The dice of an expression from left to right. -/
def handfuls : Node → List Handful
  | .dice handful => [handful]
  | .other parts => allHandfuls parts

def allHandfuls : List Node → List Handful
  | [] => []
  | part :: parts => part.handfuls ++ allHandfuls parts

end

/-- The faces of the kept dice from left to right: of all dice, or of those with so many sides. -/
def keptFaces (tree : Node) (sides : Option Nat) : List Nat :=
  (tree.handfuls.filter fun handful => sides.all (· == handful.sides)).flatMap Handful.kept

end Node

/-- What a library makes of an expression. -/
structure Rolled where
  tree : Node
  total : Int
  text : String

/-- A dice library. The faults that are its own errors have a text; all others it lets through. -/
structure Library (ε : Type) where
  roll : Faces → String → Except ε Rolled
  reason? : ε → Option String

/-- Why a formula is not rolled. -/
inductive RollerFault (ε : Type) where
  | empty
  | invalid (reason : String)
  | escaped (fault : ε)
  deriving DecidableEq, Repr

/-- What a fault tells about a formula, unless it is one that the library let through. -/
def RollerFault.report? {ε : Type} (expression : String) : RollerFault ε → Option Report
  | .empty => some (.about .diceRoll "Empty dice expression" [("expression", .text expression)] [])
  | .invalid reason =>
    some (.about .diceRoll ("Invalid dice expression: " ++ reason) [("expression", .text expression)] [])
  | .escaped _ => none

/-- What rolling a formula came to. The breakdown shows every die, and the total behind it. -/
structure Outcome where
  expression : String
  total : Int
  dice : List Nat
  isCritical : Bool
  isFumble : Bool
  breakdown : String
  label : Option String
  deriving DecidableEq, Repr

/-- The sides of the die that decides over success. -/
def decidingSides : Nat := 20

namespace Library

variable {ε : Type} (library : Library ε)

def caught (fault : ε) : RollerFault ε :=
  match library.reason? fault with
  | some reason => .invalid reason
  | none => .escaped fault

/-- Rolls a formula. -/
def rollFormula (faces : Faces) (expression : String) (label : Option String) : Except (RollerFault ε) Outcome :=
  if (Text.trim expression.toList).isEmpty then .error .empty
  else
    do
      let rolled ← (library.roll faces expression).mapError library.caught
      let deciding := (rolled.tree.keptFaces (some decidingSides)).head?
      .ok ⟨expression, rolled.total, rolled.tree.keptFaces none, deciding == some decidingSides, deciding == some 1,
        rolled.text, label⟩

end Library

/-- The seed of a roller: the one that is asked for, or that of the settings. -/
def seed (config : Config) (asked : Option Int) : Except ConfigurationFault (Option Int) :=
  match asked with
  | some n => .ok (some n)
  | none => config.map fun settings => settings.diceSeed

end HeroSheet.Dice
