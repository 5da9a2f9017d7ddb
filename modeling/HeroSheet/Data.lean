import HeroSheet.Number.Decimal
import HeroSheet.Text.Quoted

namespace HeroSheet

/-- A recorded value. Fields keep their order. -/
inductive Data where
  | null
  | flag (value : Bool)
  | int (value : Int)
  | real (value : Binary64)
  | text (value : String)
  | list (items : List Data)
  | fields (entries : List (String × Data))
  deriving Inhabited

namespace Data

mutual

/-- The value as a message shows it. -/
def shown : Data → String
  | .null => "None"
  | .flag value => if value then "True" else "False"
  | .int value => toString value
  | .real value => String.ofList value.text
  | .text value => quotedString value
  | .list items => "[" ++ ", ".intercalate (shownItems items) ++ "]"
  | .fields entries => "\x7b" ++ ", ".intercalate (shownEntries entries) ++ "\x7d"

def shownItems : List Data → List String
  | [] => []
  | item :: items => shown item :: shownItems items

def shownEntries : List (String × Data) → List String
  | [] => []
  | (name, value) :: entries => (quotedString name ++ ": " ++ shown value) :: shownEntries entries

end

/-- Nothing, or a value that counts as nothing: off, zero, or empty. -/
def isBlank : Data → Bool
  | .null => true
  | .flag b => !b
  | .int n => n = 0
  | .real x => x.isZero
  | .text s => s.isEmpty
  | .list items => items.isEmpty
  | .fields entries => entries.isEmpty

end Data

/-- Values that can be written as recorded data. -/
class ToData (α : Type) where
  toData : α → Data

export ToData (toData)

instance : ToData Data := ⟨id⟩

instance : ToData Bool := ⟨.flag⟩

instance : ToData Int := ⟨.int⟩

instance : ToData Nat := ⟨fun n => .int n⟩

instance : ToData Binary64 := ⟨.real⟩

instance : ToData String := ⟨.text⟩

/-- Characters are written as one text. -/
instance : ToData (List Char) := ⟨fun cs => .text (String.ofList cs)⟩

instance {α : Type} [ToData α] : ToData (List α) := ⟨fun items => .list (items.map toData)⟩

instance {α : Type} [ToData α] : ToData (Option α) :=
  ⟨fun
    | none => .null
    | some value => toData value⟩

/-- Entries as the fields of a record. -/
def recordOf {κ α : Type} [ToData α] (name : κ → String) (entries : List (κ × α)) : Data :=
  .fields (entries.map fun (key, value) => (name key, toData value))

end HeroSheet
