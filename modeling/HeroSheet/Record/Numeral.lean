import HeroSheet.Number.Numeral
import HeroSheet.Text.Search

/-!
Numbers that a record has as text. They are written in ASCII; spare zeros, underscores and a fraction of
zeros are taken off an integer before its digits are read.
-/

namespace HeroSheet.Record

/-- The text without underscores, which may stand alone between other characters. -/
def withoutUnderscores? (cs : List Char) : Option (List Char) :=
  if cs.head? = some '_' || cs.getLast? = some '_' || Text.contains ['_', '_'] cs then none
  else some (cs.filter (· != '_'))

/-- What a text is from its first digit other than zero on, behind zeros and underscores of which `last`
is the last. Before a point, and at the end of the text, the last one stays. -/
def afterZeros? (last : Char) : List Char → Option (List Char)
  | [] => some [last]
  | c :: cs =>
    if c == '0' || c == '_' then afterZeros? c cs
    else if c == '.' then some (last :: c :: cs)
    else if c.isDigit then some (c :: cs)
    else none

/-- The text of an integer without zeros in front. -/
def withoutLeadingZeros? : List Char → Option (List Char)
  | [] => none
  | c :: cs =>
    if c == '0' then afterZeros? c cs
    else if c == '-' || c.isDigit then some (c :: cs)
    else none

/-- The text without a point and zeros at its end. -/
def withoutZeroFraction (cs : List Char) : List Char :=
  let (whole, fraction) := cs.span (· != '.')
  match fraction with
  | _ :: zeros => if !zeros.isEmpty && zeros.all (· == '0') then whole else cs
  | [] => cs

/-- The text of an integer without what may be left out. After a plus sign there is no minus sign. -/
def bareInteger? (text : List Char) : Option (List Char) :=
  let unsigned := match Text.strip isWhiteSpace text with
    | '+' :: '-' :: _ => none
    | '+' :: cs => some cs
    | cs => some cs
  (unsigned.bind withoutLeadingZeros?).map fun cs =>
    let whole := withoutZeroFraction cs
    (withoutUnderscores? whole).getD whole

/-- The integer that a recorded text writes. Its sign counts as one of its digits; when there are too many
of them it does not matter what follows. -/
def readRecordedInteger (text : List Char) : Except NumeralFault Int :=
  match bareInteger? text with
  | none => .error .notNumeral
  | some cs =>
    let (negative, numeral) := signSpan cs
    let digits := plainDigits numeral
    let width := cs.length - numeral.length + digits.length
    if numeral = ['0'] then .ok 0
    else if digits.isEmpty || digits.head? = some '0' then .error .notNumeral
    else if maxIntegerDigits < width then .error (.tooLong width)
    else if digits.length < numeral.length then .error .notNumeral
    else .ok (signedInteger negative (digitsNumber digits))

/-- The number that a recorded text writes: white space may surround it, or else underscores may stand in
it. -/
def readRecordedReal? (text : List Char) : Option Binary64 :=
  let plain :=
    if text.contains '_' then withoutUnderscores? text else some (Text.strip isWhiteSpace text)
  plain.bind fun cs =>
    if cs.all fun c => c.toNat < 128 && !isWhiteSpace c then readReal? cs else none

end HeroSheet.Record
