import HeroSheet.Text.Printable

/-!
Quoted text. It stands between single quotes, or between double quotes when it holds single quotes
only; the quote, the backslash and characters that do not print are escaped.
-/

namespace HeroSheet.Text

/-- Hexadecimal digits of a number, at least `width` of them. -/
def hexDigits (width n : Nat) : List Char :=
  let digits := Nat.toDigits 16 n
  List.replicate (width - digits.length) '0' ++ digits

/-- A character as it stands between quotes. -/
def escaped (quote c : Char) : List Char :=
  if c = quote ∨ c = '\\' then ['\\', c]
  else if c = '\n' then ['\\', 'n']
  else if c = '\r' then ['\\', 'r']
  else if c = '\t' then ['\\', 't']
  else if isPrintable c then [c]
  else if c.toNat < 0x100 then '\\' :: 'x' :: hexDigits 2 c.toNat
  else if c.toNat < 0x10000 then '\\' :: 'u' :: hexDigits 4 c.toNat
  else '\\' :: 'U' :: hexDigits 8 c.toNat

/-- The quoted form of a text. -/
def quoted (cs : List Char) : List Char :=
  let quote := if cs.contains '\x27' && !cs.contains '"' then '"' else '\x27'
  quote :: (cs.flatMap (escaped quote) ++ [quote])

end HeroSheet.Text

namespace HeroSheet

/-- The quoted form of a string. -/
def quotedString (s : String) : String := String.ofList (Text.quoted s.toList)

end HeroSheet
