import HeroSheet.Record.Basic

namespace HeroSheet

inductive Variable where
  | number (value : Binary64)
  | flag (value : Bool)
  | text (value : String)
  deriving DecidableEq

/-- What a reference in a formula stands for. -/
inductive Value where
  | int (value : Int)
  | real (value : Binary64)
  | flag (value : Bool)
  | text (value : String)
  deriving DecidableEq

/-- Number text as it is spliced into a formula: a whole number without its fraction. -/
def renderNumber (x : Binary64) : List Char :=
  if x.isWhole then
    match x.truncate? with
    | some n => integerText n
    | none => x.text
  else x.text

namespace Value

def isNumber : Value → Bool
  | .int _ => true
  | .real _ => true
  | _ => false

/-- The text of a value in a formula. -/
def render : Value → List Char
  | .int n => integerText n
  | .real x => renderNumber x
  | .flag b => (if b then "true" else "false").toList
  | .text s => s.toList

/-- The value may be written: it is no integer with too many digits. -/
def isWritable : Value → Bool
  | .int n => HeroSheet.isWritable n
  | _ => true

/-- A number, as an integer when it is whole. -/
def ofNumber (x : Binary64) : Value :=
  if x.isWhole then
    match x.truncate? with
    | some n => .int n
    | none => .real x
  else .real x

end Value

instance : ToData Value :=
  ⟨fun
    | .int n => .int n
    | .real x => .real x
    | .flag b => .flag b
    | .text s => .text s⟩

namespace Variable

/-- The value that a variable stands for. -/
def toValue : Variable → Value
  | .number x => .ofNumber x
  | .flag b => .flag b
  | .text s => .text s

def isText : Variable → Bool
  | .text _ => true
  | _ => false

/-- The number, when the variable is one. -/
def number? : Variable → Option Binary64
  | .number x => some x
  | _ => none

/-- A recorded value that no variable can hold. -/
def unsupported (summary : String) (raw : Data) : Report :=
  .about .validation summary [("invalid_value", raw)] []

/-- A record with a `kind` and a `value`. -/
def readKind {α : Type} (read : Record.Reader α) (make : α → Variable) : Record.Reader Variable :=
  Record.record ["kind", "value"] fun fields =>
    (Record.required fields "value" read).map make

mutual

/-- The variable that recorded data means: a plain value, a record of a known `kind`, or a record
with the plain value under `value`. -/
def read : Data → Record.Checked Variable
  | .flag b => .valid (.flag b)
  | .int n =>
    let x := Binary64.ofInt n
    if x.isFinite then .valid (.number x) else .stopped .outOfRange
  | .real x => .valid (.number x)
  | .text s => .valid (.text s)
  | .fields fields =>
    match Entries.get? fields "kind" with
    | some (.text "number") => readKind Record.real .number (.fields fields)
    | some (.text "bool") => readKind Record.flag .flag (.fields fields)
    | some (.text "text") => readKind Record.text .text (.fields fields)
    | _ =>
      match readInner fields with
      | some checked => checked
      | none => .stopped (.unsupported (unsupported "Unsupported variable mapping" (.fields fields)))
  | raw => .stopped (.unsupported (unsupported "Unsupported variable value" raw))

/-- The variable under the name `value`, when there is one. -/
def readInner : List (String × Data) → Option (Record.Checked Variable)
  | [] => none
  | (name, d) :: fields => if name == "value" then some (read d) else readInner fields

end

end Variable

end HeroSheet
