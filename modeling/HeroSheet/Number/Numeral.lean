import HeroSheet.Number.Decimal
import HeroSheet.Text.Blank
import HeroSheet.Text.LowerCase

/-!
Reading numbers from text. White space may surround a numeral, a sign may precede it, its digits may
come from any script, and single underscores may stand between digits. Numerals of integers are limited
in length.
-/

namespace HeroSheet

/-- The digits at the front of a text, and what follows them. An underscore between two digits is
passed over; `inside` says that a digit stands before. -/
def digitSpan (inside : Bool) : List Char → List Nat × List Char
  | [] => ([], [])
  | c :: cs =>
    match digitValue? c with
    | some d =>
      let (digits, rest) := digitSpan true cs
      (d :: digits, rest)
    | none =>
      if inside && c == '_' && (cs.head?.any isDecimal) then digitSpan false cs
      else ([], c :: cs)

/-- The number that digits stand for. -/
def digitsValue (digits : List Nat) : Nat := digits.foldl (fun value d => 10 * value + d) 0

/-- The ASCII digits at the front of a text. -/
def plainDigits (cs : List Char) : List Char := cs.takeWhile Char.isDigit

/-- The number that digits write. -/
def digitsNumber (cs : List Char) : Nat := digitsValue (cs.filterMap digitValue?)

/-- A leading sign, and the text after it. -/
def signSpan : List Char → Bool × List Char
  | '-' :: cs => (true, cs)
  | '+' :: cs => (false, cs)
  | cs => (false, cs)

/-- The integer of a sign and a natural number. -/
def signedInteger (negative : Bool) (n : Nat) : Int := if negative then -(n : Int) else n

/-- The most digits that an integer may have as text. -/
def maxIntegerDigits : Nat := 4300

/-- The integer has no more digits than may be written. -/
def isWritable (n : Int) : Bool := (naturalText n.natAbs).length ≤ maxIntegerDigits

/-- Why a text is read as no integer. -/
inductive NumeralFault where
  | notNumeral
  | tooLong (digits : Nat)
  deriving DecidableEq, Repr

/-- The integer that a text writes. Too many digits are a fault of their own, whatever follows them. -/
def readInteger (text : List Char) : Except NumeralFault Int :=
  let (negative, cs) := signSpan (Text.strip isWhiteSpace text)
  let (digits, rest) := digitSpan false cs
  if digits.isEmpty || rest.head? = some '_' then .error .notNumeral
  else if maxIntegerDigits < digits.length then .error (.tooLong digits.length)
  else if !rest.isEmpty then .error .notNumeral
  else .ok (signedInteger negative (digitsValue digits))

/-- The exponent part of a numeral: nothing, or `e`, a sign and digits. -/
def readExponent? : List Char → Option Int
  | [] => some 0
  | c :: cs =>
    if c == 'e' || c == 'E' then
      let (negative, rest) := signSpan cs
      match digitSpan false rest with
      | ([], _) => none
      | (digits, []) => some (signedInteger negative (digitsValue digits))
      | _ => none
    else none

/-- The decimal that an unsigned numeral writes. -/
def readDecimal? (cs : List Char) : Option Decimal :=
  let (whole, rest) := digitSpan false cs
  let (fraction, rest) := match rest with
    | '.' :: rest => digitSpan false rest
    | _ => ([], rest)
  if whole.isEmpty && fraction.isEmpty then none
  else (readExponent? rest).map fun exponent =>
    ⟨digitsValue (whole ++ fraction), exponent - fraction.length⟩

/-- The binary number nearest to what a text writes; infinity and `nan` may be spelled out. -/
def readReal? (text : List Char) : Option Binary64 :=
  let (negative, cs) := signSpan (Text.strip isWhiteSpace text)
  let word := String.ofList (Text.lower cs)
  if word = "inf" ∨ word = "infinity" then some (.infinite negative)
  else if word = "nan" then some .nan
  else (readDecimal? cs).map (Decimal.toBinary64 negative)

end HeroSheet
