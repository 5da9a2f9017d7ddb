import HeroSheet.Number.Binary64
import HeroSheet.Text.Digit

/-!
Decimal text of numbers. A number is written with the fewest digits that read back as the same
number, and of those with the nearest.
-/

namespace HeroSheet

/-- The number `digits * 10 ^ exponent`. -/
structure Decimal where
  digits : Nat
  exponent : Int
  deriving DecidableEq

namespace Decimal

/-- The nearest binary number; an exponent far out of range settles it at once. -/
def toBinary64 (negative : Bool) (d : Decimal) : Binary64 :=
  if d.digits = 0 then .finite negative .zero
  else if 400 < d.exponent then .infinite negative
  else if d.exponent < -(401 + d.digits.log2 : Int) then .finite negative .zero
  else .ofDecimal negative d.digits d.exponent

/-- The decimal with all binary places written out. -/
def exact (m : Magnitude) : Decimal := ⟨m.units * power 5 binaryPlaces, -(binaryPlaces : Int)⟩

/-- The two neighbours of a magnitude among the multiples of `10 ^ exponent`, the nearer one first;
a tie puts the even one first. -/
def neighbours (m : Magnitude) (exponent : Int) : List Decimal :=
  let num := m.units * power 10 (-exponent).toNat
  let den := unitsPerOne * power 10 exponent.toNat
  let below := num / den
  let rest := num % den
  if den < 2 * rest ∨ (2 * rest = den ∧ below % 2 = 1) then
    [⟨below + 1, exponent⟩, ⟨below, exponent⟩]
  else [⟨below, exponent⟩, ⟨below + 1, exponent⟩]

/-- The same decimal without zeros at the end of its digits. -/
def trimmed (d : Decimal) : Decimal :=
  if _ends : d.digits ≠ 0 ∧ d.digits % 10 = 0 then trimmed ⟨d.digits / 10, d.exponent + 1⟩ else d
termination_by d.digits
decreasing_by exact Nat.div_lt_self (by omega) (by omega)

/-- The least `k` with the magnitude below `10 ^ k`. -/
def pointPlace (m : Magnitude) : Int :=
  let guess : Int := ((m.units.log2 : Int) - binaryPlaces) * 30103 / 100000
  let isAbove (k : Int) : Bool := m.units * power 10 (-k).toNat < unitsPerOne * power 10 k.toNat
  if isAbove (guess - 1) then guess - 1
  else if isAbove guess then guess
  else if isAbove (guess + 1) then guess + 1
  else guess + 2

/-- The decimal of fewest digits that reads back as the magnitude, and the nearest such. -/
def shortest (m : Magnitude) : Decimal :=
  let place := pointPlace m
  let readsBack (d : Decimal) : Bool := d.toBinary64 false = .finite false m
  let found := (List.range 17).findSome? fun count =>
    (neighbours m (place - (count + 1 : Nat))).find? readsBack
  (found.getD (exact m)).trimmed

end Decimal

/-- Decimal text of a natural number. -/
def naturalText (n : Nat) : List Char := Nat.toDigits 10 n

/-- Decimal text of an integer. -/
def integerText : Int → List Char
  | .ofNat n => naturalText n
  | .negSucc n => '-' :: naturalText (n + 1)

/-- Decimal text of a positive magnitude: positional from `0.0001` up to `10 ^ 16`, else with an
exponent of at least two digits. A whole number keeps `.0` in positional text. -/
def Magnitude.text (m : Magnitude) : List Char :=
  let d := Decimal.shortest m
  let digits := naturalText d.digits
  let place : Int := digits.length + d.exponent
  if -4 < place ∧ place ≤ 16 then
    if place ≤ 0 then '0' :: '.' :: (List.replicate (-place).toNat '0' ++ digits)
    else if digits.length ≤ place.toNat then
      digits ++ List.replicate (place.toNat - digits.length) '0' ++ ['.', '0']
    else digits.take place.toNat ++ '.' :: digits.drop place.toNat
  else
    let mantissa := match digits with
      | [] => []
      | [c] => [c]
      | c :: cs => c :: '.' :: cs
    let size := naturalText (place - 1).natAbs
    let padded := if size.length < 2 then '0' :: size else size
    mantissa ++ 'e' :: (if place < 1 then '-' else '+') :: padded

/-- Decimal text of a binary number. -/
def Binary64.text : Binary64 → List Char
  | .nan => ['n', 'a', 'n']
  | .infinite negative => (if negative then ['-'] else []) ++ ['i', 'n', 'f']
  | .finite negative size =>
    (if negative then ['-'] else []) ++
      if size.units = 0 then ['0', '.', '0'] else size.text

end HeroSheet
