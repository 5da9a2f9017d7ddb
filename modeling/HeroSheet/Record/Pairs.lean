import HeroSheet.Record.Basic

/-!
Entries that a record lists as pairs. Keys are texts, numbers, flags or nothing; flags count as numbers,
and equal numbers are one key.
-/

namespace HeroSheet.Record

/-- The integer that a key equals. -/
def wholeKey? : Data → Option Int
  | .flag b => some (if b then 1 else 0)
  | .int n => some n
  | .real x => if x.isWhole then x.truncate? else none
  | _ => none

/-- Two keys are one. -/
def sameKey : Data → Data → Bool
  | .null, .null => true
  | .text s, .text t => s == t
  | .real x, .real y => x.same y
  | a, b => (wholeKey? a).isSome && wholeKey? a == wholeKey? b

/-- The pairs with one value set; a key that is there already keeps its place and its form. -/
def putPair : List (Data × Data) → Data → Data → List (Data × Data)
  | [], key, value => [(key, value)]
  | e :: es, key, value => if sameKey e.1 key then (e.1, value) :: es else e :: putPair es key value

/-- What is wrong with an item of a list of pairs that is none. -/
def notPair {α : Type} (place length : Nat) : Checked α :=
  .refuse (.rule ("dictionary update sequence element #" ++ toString place ++ " has length " ++
    toString length ++ "; 2 is required"))

/-- An item of a list of pairs: a key and what stands under it. -/
def pairOf (place : Nat) : Data → Checked (Data × Data)
  | .list [.list _, _] => .stopped .wrongType
  | .list [.fields _, _] => .stopped .wrongType
  | .list [key, value] => .valid (key, value)
  | .list items => notPair place items.length
  | .text s =>
    match s.toList with
    | [key, value] => .valid (.text key.toString, .text value.toString)
    | cs => notPair place cs.length
  | .fields [key, value] => .valid (.text key.1, .text value.1)
  | .fields entries => notPair place entries.length
  | _ => .stopped .wrongType

/-- The pairs of a list, behind those that were read before. -/
def pairs (place : Nat) (read : List (Data × Data)) : List Data → Checked (List (Data × Data))
  | [] => .valid read
  | d :: ds => (pairOf place d).andThen fun e => pairs (place + 1) (putPair read e.1 e.2) ds

/-- Recorded entries as pairs; whatever counts as nothing has none. -/
def recordedPairs : Option Data → Checked (List (Data × Data))
  | none => .valid []
  | some (.fields fields) => .valid (textKeyed fields)
  | some (.list items) => pairs 0 [] items
  | some (.text s) => if s.isEmpty then .valid [] else notPair 0 1
  | some d => if d.isBlank then .valid [] else .stopped .wrongType

end HeroSheet.Record
