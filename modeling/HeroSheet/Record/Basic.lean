import HeroSheet.Record.Numeral
import HeroSheet.Report

/-!
Reading recorded data into values of the library. Every fault of a record is reported, in the order
of its fields and then of the entries it must not have; a few faults stop the reading at once.
-/

namespace HeroSheet.Record

/-- Why a recorded value was refused. -/
inductive Refusal where
  | missing
  | unexpected
  | notText
  | tooShort
  | notInteger
  | unreadableInteger
  | oversizedInteger
  | fractional
  | infinite
  | belowLeast
  | aboveGreatest
  | notNumber
  | unreadableNumber
  | notFlag
  | unreadableFlag
  | notListed
  | notChoice
  | unknownShape
  | shapeMissing
  | notList
  | notEntries
  | notRecord
  | rule (message : String)
  deriving DecidableEq, Repr

/-- A refused value and the way to it. -/
structure Issue where
  path : List String
  refusal : Refusal
  deriving DecidableEq, Repr

/-- Why the reading of a record cannot go on. -/
inductive Stop where
  | unsupported (report : Report)
  | outOfRange
  | wrongType
  | noEntries

/-- The least natural number that is out of range of a signed machine word. -/
def wordBound : Nat := 0x8000000000000000

/-- A value that was read, the issues that were found, or the reason to stop. -/
inductive Checked (α : Type) where
  | valid (value : α)
  | refused (issues : List Issue)
  | stopped (reason : Stop)

namespace Checked

def map {α β : Type} (f : α → β) : Checked α → Checked β
  | .valid value => .valid (f value)
  | .refused issues => .refused issues
  | .stopped reason => .stopped reason

/-- Both values, or the issues of both; the first reason to stop wins. -/
def both {α β : Type} : Checked (α → β) → (Unit → Checked α) → Checked β
  | .stopped reason, _ => .stopped reason
  | .valid f, x => (x ()).map f
  | .refused issues, x =>
    match x () with
    | .valid _ => .refused issues
    | .refused more => .refused (issues ++ more)
    | .stopped reason => .stopped reason

instance : Applicative Checked where
  pure := .valid
  map := map
  seq := both

/-- A further reading that needs the value. -/
def andThen {α β : Type} (x : Checked α) (f : α → Checked β) : Checked β :=
  match x with
  | .valid value => f value
  | .refused issues => .refused issues
  | .stopped reason => .stopped reason

def refuse {α : Type} (refusal : Refusal) : Checked α := .refused [⟨[], refusal⟩]

/-- The same with every issue found under a name. -/
def under {α : Type} (name : String) : Checked α → Checked α
  | .refused issues => .refused (issues.map fun issue => { issue with path := name :: issue.path })
  | checked => checked

/-- The values of a list of readings. -/
def sequence {α : Type} : List (Checked α) → Checked (List α)
  | [] => .valid []
  | x :: xs => (x.map List.cons).both fun _ => sequence xs

end Checked

abbrev Reader (α : Type) := Data → Checked α

def text : Reader String
  | .text s => .valid s
  | _ => .refuse .notText

/-- Text of at least one character. -/
def nonemptyText : Reader String
  | .text s => if s.isEmpty then .refuse .tooShort else .valid s
  | _ => .refuse .notText

/-- The integer that a number is, if it has no fraction and fits a machine word with either sign. -/
def integerOfReal (x : Binary64) : Checked Int :=
  match x.truncate? with
  | none => .refuse .infinite
  | some n =>
    if !x.isWhole then .refuse .fractional
    else if n.natAbs < wordBound then .valid n
    else .refuse .oversizedInteger

def integer : Reader Int
  | .int n => .valid n
  | .flag b => .valid (if b then 1 else 0)
  | .real x => integerOfReal x
  | .text s =>
    match readRecordedInteger s.toList with
    | .ok n => .valid n
    | .error .notNumeral => .refuse .unreadableInteger
    | .error (.tooLong _) => .refuse .oversizedInteger
  | _ => .refuse .notInteger

/-- An integer within bounds. -/
def integerWithin (least : Int) (greatest : Option Int) : Reader Int := fun d =>
  (integer d).andThen fun n =>
    if n < least then .refuse .belowLeast
    else if greatest.any (· < n) then .refuse .aboveGreatest
    else .valid n

def integerFrom (least : Int) : Reader Int := integerWithin least none

def real : Reader Binary64
  | .real x => .valid x
  | .int n =>
    let x := Binary64.ofInt n
    if x.isFinite then .valid x else .refuse .notNumber
  | .flag b => .valid (.ofInt (if b then 1 else 0))
  | .text s =>
    match readRecordedReal? s.toList with
    | some x => .valid x
    | none => .refuse .unreadableNumber
  | _ => .refuse .notNumber

def flagOfText? (s : String) : Option Bool :=
  let word := lowered s
  if ["0", "off", "f", "false", "n", "no"].contains word then some false
  else if ["1", "on", "t", "true", "y", "yes"].contains word then some true
  else none

/-- The flag that an integer stands for; one that does not fit a machine word stands for none at all. -/
def flagOfInt (n : Int) : Checked Bool :=
  if n < -wordBound ∨ wordBound ≤ n then .refuse .notFlag
  else if n = 0 then .valid false
  else if n = 1 then .valid true
  else .refuse .unreadableFlag

def flag : Reader Bool
  | .flag b => .valid b
  | .int n => flagOfInt n
  | .real x =>
    match integerOfReal x with
    | .valid n => flagOfInt n
    | _ => .refuse .notFlag
  | .text s =>
    match flagOfText? s with
    | some b => .valid b
    | none => .refuse .unreadableFlag
  | _ => .refuse .notFlag

/-- One of a fixed set of words. -/
def choice {α : Type} (ofName? : String → Option α) (refusal : Refusal) : Reader α
  | .text s =>
    match ofName? s with
    | some value => .valid value
    | none => .refuse refusal
  | _ => .refuse refusal

/-- Nothing, or a value. -/
def optional {α : Type} (read : Reader α) : Reader (Option α)
  | .null => .valid none
  | d => (read d).map some

/-- A list whose items are all read alike. -/
def list {α : Type} (read : Reader α) : Reader (List α)
  | .list items =>
    .sequence ((items.zipIdx).map fun (item, index) => (read item).under (toString index))
  | _ => .refuse .notList

/-- The path step of a key that was refused. -/
def keyStep : String := "[key]"

/-- Entries under names as pairs of a key and a value. -/
def textKeyed (fields : List (String × Data)) : List (Data × Data) :=
  fields.map fun (name, d) => (.text name, d)

/-- The path step of what stands under a key. -/
def stepOf : Data → String
  | .text s => s
  | .flag b => if b then "1" else "0"
  | key => key.shown

/-- Entries from pairs of a key and a value, where all keys and all values are read alike. -/
def pairedEntries {κ α : Type} [DecidableEq κ] (readKey : Reader κ) (read : Reader α)
    (pairs : List (Data × Data)) : Checked (List (κ × α)) :=
  let checked := pairs.map fun (key, d) =>
    (((readKey key).under keyStep).under (stepOf key) |>.map Prod.mk).both fun _ =>
      (read d).under (stepOf key)
  (Checked.sequence checked).map fun pairs =>
    pairs.foldl (fun entries (key, value) => Entries.put entries key value) []

/-- Entries whose keys and values are all read alike. -/
def entries {κ α : Type} [DecidableEq κ] (readKey : Reader κ) (read : Reader α) : Reader (List (κ × α))
  | .fields fields => pairedEntries readKey read (textKeyed fields)
  | _ => .refuse .notEntries

/-- A field that must be there. -/
def required {α : Type} (fields : List (String × Data)) (name : String) (read : Reader α) :
    Checked α :=
  match Entries.get? fields name with
  | some d => (read d).under name
  | none => .refused [⟨[name], .missing⟩]

/-- A field with a value for when it is left out. -/
def withDefault {α : Type} (fields : List (String × Data)) (name : String) (default : α)
    (read : Reader α) : Checked α :=
  match Entries.get? fields name with
  | some d => (read d).under name
  | none => .valid default

/-- There are no fields but the known ones. -/
def closed (fields : List (String × Data)) (known : List String) : Checked Unit :=
  let extra := fields.filter fun e => !known.contains e.1
  if extra.isEmpty then .valid () else .refused (extra.map fun e => ⟨[e.1], .unexpected⟩)

/-- A record of the known fields. -/
def record {α : Type} (known : List String) (read : List (String × Data) → Checked α) : Reader α
  | .fields fields => ((read fields).map fun value _ => value).both fun _ => closed fields known
  | _ => .refuse .notRecord

/-- A rule that a read value has to keep; otherwise its message. -/
def keeping {α : Type} (broken? : α → Option String) (x : Checked α) : Checked α :=
  x.andThen fun value =>
    match broken? value with
    | none => .valid value
    | some message => .refuse (.rule message)

end HeroSheet.Record
