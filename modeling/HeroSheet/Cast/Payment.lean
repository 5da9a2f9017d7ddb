import HeroSheet.Number.Numeral

namespace HeroSheet

/-- What cannot be paid for: how much is needed, and how much there is. -/
structure InsufficientResource where
  resource : String
  required : Int
  available : Int
  deriving DecidableEq, Repr

def InsufficientResource.message (shortfall : InsufficientResource) : String :=
  "Not enough " ++ shortfall.resource ++ ": need " ++ toString shortfall.required ++ ", have " ++
    toString shortfall.available

/-- The message, unless an integer in it has too many digits to be written. -/
def InsufficientResource.message? (shortfall : InsufficientResource) : Option String :=
  if isWritable shortfall.required && isWritable shortfall.available then some shortfall.message else none

/-- A result that was paid for, or what it falls short of. -/
inductive Payment (α : Type) where
  | granted (value : α)
  | short (shortfall : InsufficientResource)
  deriving DecidableEq, Repr

end HeroSheet
